import Mathlib.Data.List.Forall2
import MuduoHttp.Base.TimeZone
import MuduoHttp.Support.ClockChanges

/-!
# Local time

`TimeZone::toLocalTime` looks the transition in force up by the time, and
`fromLocalTime` by the local time.  `lower_bound` is modelled by its contract,
on a range that the comparison partitions.  An access out of the range of a
vector or of a string has no result.

A local time that comes twice, before and after the clocks are set back, is
taken for the later one, unless the `tm_isdst` of the argument says summer and
the clocks go back by an hour to winter.
-/

namespace MuduoHttp

open Support

namespace TimeZone

/-- `detail::Transition`. -/
structure Transition where
  gmttime : ℤ
  localtime : ℤ
  localtimeIdx : ℕ
  deriving DecidableEq

/-- `detail::Comp`. -/
structure Comp where
  compareGmt : Bool

/-- `Comp::operator()`. -/
def Comp.less (comp : Comp) (lhs rhs : Transition) : Bool :=
  if comp.compareGmt then lhs.gmttime < rhs.gmttime
  else lhs.localtime < rhs.localtime

def Comp.equal (comp : Comp) (lhs rhs : Transition) : Bool :=
  if comp.compareGmt then lhs.gmttime = rhs.gmttime
  else lhs.localtime = rhs.localtime

/-- `detail::Localtime`. -/
structure Localtime where
  gmtOffset : ℤ
  isDst : Bool
  arrbIdx : ℕ
  deriving DecidableEq

/-- `TimeZone::Data`; nothing is ever written to its `names`. -/
structure Data where
  transitions : List Transition := []
  localtimes : List Localtime := []
  abbreviation : Bytes := []
  deriving DecidableEq

/-- `TimeZone::TimeZone(eastOfUtc, name)`. -/
def Data.fixed (eastOfUtc : ℤ) (name : Bytes) : Data where
  localtimes := [⟨eastOfUtc, false, 0⟩]
  abbreviation := name

/-- `std::lower_bound`: the index of the first transition that is not less. -/
def lowerBound (transitions : List Transition) (sentry : Transition)
    (comp : Comp) : ℕ :=
  transitions.findIdx fun x => !comp.less x sentry

def findLocaltime (data : Data) (sentry : Transition) (comp : Comp) :
    Option Localtime :=
  match data.transitions with
  | [] => data.localtimes.head?
  | front :: _ =>
      if comp.less sentry front then data.localtimes.head?
      else
        let transI := lowerBound data.transitions sentry comp
        match data.transitions[transI]? with
        | some x =>
            if comp.equal sentry x then data.localtimes[x.localtimeIdx]?
            else if transI = 0 then none
            else
              data.transitions[transI - 1]?.bind fun y =>
                data.localtimes[y.localtimeIdx]?
        | none =>
            data.transitions.getLast?.bind fun x =>
              data.localtimes[x.localtimeIdx]?

/-- `gmtime_r`, which breaks a time down as `toUtcTime` does. -/
def gmtimeR (seconds : ℤ) : Tm := toUtcTime seconds true

/-- `timegm`, which brings the month into the year. -/
def timegm (tm : Tm) : ℤ :=
  fromUtcFields (tm.year + tm.mon / 12 + 1900) (tm.mon % 12 + 1) tm.mday
    tm.hour tm.min tm.sec

/-- The string that starts at an index and ends before a null byte. -/
def cString (s : Bytes) (i : ℕ) : Option Bytes :=
  if i ≤ s.length then some ((s.drop i).takeWhile (· ≠ 0)) else none

def toLocalTime (data : Data) (seconds : ℤ) : Option Tm := do
  let sentry : Transition := ⟨seconds, 0, 0⟩
  let loc ← findLocaltime data sentry ⟨true⟩
  let zone ← cString data.abbreviation loc.arrbIdx
  let localSeconds := seconds + loc.gmtOffset
  some
    { gmtimeR localSeconds with
      isdst := if loc.isDst then 1 else 0
      gmtoff := loc.gmtOffset
      zone := zone }

def fromLocalTime (data : Data) (localTm : Tm) : Option ℤ := do
  let seconds := timegm localTm
  let sentry : Transition := ⟨0, seconds, 0⟩
  let loc ← findLocaltime data sentry ⟨false⟩
  if localTm.isdst ≠ 0 then
    let tryTm ← toLocalTime data (seconds - loc.gmtOffset)
    let seconds :=
      if tryTm.isdst = 0 ∧ tryTm.hour = localTm.hour ∧
          tryTm.min = localTm.min then seconds - 3600
      else seconds
    some (seconds - loc.gmtOffset)
  else some (seconds - loc.gmtOffset)

/-! ## The rules of a zone -/

/-- What holds in a place: the local time that it begins with, and the changes
to other ones. -/
structure Zone where
  initial : Localtime
  changes : List (ℤ × Localtime)

/-- The local time that is in force. -/
def Zone.ruleAt (zone : Zone) (t : ℤ) : Localtime :=
  Support.ruleAt zone.initial zone.changes t

/-- A transition of the data is a change of the zone. -/
structure Stores (data : Data) (c : ℤ × Localtime) (x : Transition) : Prop where
  gmttime : x.gmttime = c.1
  localtime : x.localtime = c.1 + c.2.gmtOffset
  localtimeIdx : data.localtimes[x.localtimeIdx]? = some c.2

/-- The data are those of the zone. -/
structure Data.Describes (data : Data) (zone : Zone) : Prop where
  initial : data.localtimes.head? = some zone.initial
  changes : List.Forall₂ (Stores data) zone.changes data.transitions
  abbreviation : ∀ loc ∈ data.localtimes,
    loc.arrbIdx ≤ data.abbreviation.length

/-- The changes are further apart than any two of the offsets. -/
def Zone.Regular (zone : Zone) (w : ℤ) : Prop :=
  Spaced Localtime.gmtOffset w zone.initial zone.changes

/-! ## Looking up -/

/-- What the comparison looks at. -/
def Comp.key (comp : Comp) (x : Transition) : ℤ :=
  if comp.compareGmt then x.gmttime else x.localtime

theorem Comp.less_iff (comp : Comp) (x y : Transition) :
    comp.less x y = true ↔ comp.key x < comp.key y := by
  unfold Comp.less Comp.key
  split_ifs <;> exact decide_eq_true_iff

theorem Comp.equal_iff (comp : Comp) (x y : Transition) :
    comp.equal x y = true ↔ comp.key x = comp.key y := by
  unfold Comp.equal Comp.key
  split_ifs <;> exact decide_eq_true_iff

/-- A transition whose key is the time of a change. -/
def Keyed (data : Data) (comp : Comp) (c : ℤ × Localtime) (x : Transition) :
    Prop :=
  comp.key x = c.1 ∧ data.localtimes[x.localtimeIdx]? = some c.2

theorem forall₂_getElem? {α β : Type*} {R : α → β → Prop} {as : List α}
    {bs : List β} (h : List.Forall₂ R as bs) (i : ℕ) :
    (as[i]? = none ∧ bs[i]? = none) ∨
      ∃ a b, as[i]? = some a ∧ bs[i]? = some b ∧ R a b := by
  induction h generalizing i with
  | nil => exact .inl ⟨rfl, rfl⟩
  | cons hab _ ih =>
      cases i with
      | zero => exact .inr ⟨_, _, rfl, rfl, hab⟩
      | succ i => exact ih i

section Lookup

variable {data : Data} {comp : Comp} {changes : List (ℤ × Localtime)}
  {initial : Localtime}

theorem localtime_eq (hkeyed : List.Forall₂ (Keyed data comp) changes
      data.transitions)
    (hsorted : changes.Pairwise fun c d => c.1 < d.1) {i : ℕ} {x : Transition}
    {t : ℤ} (hi : data.transitions[i]? = some x) (hle : comp.key x ≤ t)
    (hnext : ∀ y, data.transitions[i + 1]? = some y → t < comp.key y) :
    data.localtimes[x.localtimeIdx]? = some (ruleAt initial changes t) := by
  obtain ⟨-, hnone⟩ | ⟨c, y, hc, hy, hkey, hloc⟩ := forall₂_getElem? hkeyed i
  · rw [hi] at hnone
    cases hnone
  · rw [hi] at hy
    cases hy
    rw [hloc, ruleAt_eq hsorted hc (hkey ▸ hle)]
    intro d hd
    obtain ⟨hnone, -⟩ | ⟨d', y, hd', hy, hkey', -⟩ :=
      forall₂_getElem? hkeyed (i + 1)
    · rw [hd] at hnone
      cases hnone
    · rw [hd] at hd'
      cases hd'
      exact hkey' ▸ hnext y hy

theorem key_lt_next (hkeyed : List.Forall₂ (Keyed data comp) changes
      data.transitions)
    (hsorted : changes.Pairwise fun c d => c.1 < d.1) {i : ℕ}
    {x y : Transition} (hx : data.transitions[i]? = some x)
    (hy : data.transitions[i + 1]? = some y) : comp.key x < comp.key y := by
  obtain ⟨-, hnone⟩ | ⟨c, x', hc, hx', hkeyx, -⟩ := forall₂_getElem? hkeyed i
  · rw [hx] at hnone
    cases hnone
  obtain ⟨-, hnone⟩ | ⟨d, y', hd, hy', hkeyy, -⟩ :=
    forall₂_getElem? hkeyed (i + 1)
  · rw [hy] at hnone
    cases hnone
  rw [hx] at hx'
  rw [hy] at hy'
  cases hx'
  cases hy'
  obtain ⟨hi, rfl⟩ := List.getElem?_eq_some_iff.mp hc
  obtain ⟨hj, rfl⟩ := List.getElem?_eq_some_iff.mp hd
  rw [hkeyx, hkeyy]
  exact List.pairwise_iff_getElem.mp hsorted i (i + 1) hi hj (by omega)

/-- The transitions before the lower bound are less, and those from it on are
not. -/
theorem lowerBound_spec (transitions : List Transition) (sentry : Transition)
    (comp : Comp) :
    (∀ i x, i < lowerBound transitions sentry comp →
      transitions[i]? = some x → comp.key x < comp.key sentry) ∧
    ∀ x, transitions[lowerBound transitions sentry comp]? = some x →
      comp.key sentry ≤ comp.key x := by
  constructor
  · intro i x hi hx
    obtain ⟨hlt, rfl⟩ := List.getElem?_eq_some_iff.mp hx
    have hnot := List.not_of_lt_findIdx hi
    rw [← Comp.less_iff]
    simpa using hnot
  · intro x hx
    have hge := List.findIdx_of_getElem?_eq_some hx
    rw [Bool.not_eq_true', ← Bool.not_eq_true, Comp.less_iff] at hge
    exact not_lt.mp hge

theorem findLocaltime_eq (hinitial : data.localtimes.head? = some initial)
    (hkeyed : List.Forall₂ (Keyed data comp) changes data.transitions)
    (hsorted : changes.Pairwise fun c d => c.1 < d.1) (sentry : Transition) :
    findLocaltime data sentry comp =
      some (ruleAt initial changes (comp.key sentry)) := by
  unfold findLocaltime
  split
  · rename_i hnil
    rw [hnil, List.forall₂_nil_right_iff] at hkeyed
    rw [hkeyed, hinitial]
    rfl
  · rename_i front rest hcons
    split_ifs with hfront
    · rw [Comp.less_iff] at hfront
      obtain ⟨c, cs, hc, -, rfl⟩ :=
        List.forall₂_cons_right_iff.mp (hcons ▸ hkeyed)
      rw [hinitial, ruleAt, if_pos (hc.1 ▸ hfront)]
    · obtain ⟨hbefore, hfrom⟩ := lowerBound_spec data.transitions sentry comp
      simp only
      split
      · rename_i x hx
        have hge := hfrom x hx
        split_ifs with heq hzero
        · -- the sentry's own key
          rw [Comp.equal_iff] at heq
          refine localtime_eq hkeyed hsorted hx heq.ge fun y hy => ?_
          exact heq ▸ key_lt_next hkeyed hsorted hx hy
        · -- the first key is not greater, so it is equal
          rw [hzero, hcons] at hx
          cases hx
          rw [Comp.less_iff] at hfront
          exact absurd ((Comp.equal_iff ..).mpr (by omega)) heq
        · -- the key before it is the last smaller one
          rw [Comp.equal_iff] at heq
          obtain ⟨y, hy⟩ : ∃ y, data.transitions[
              lowerBound data.transitions sentry comp - 1]? = some y := by
            have hlt := (List.getElem?_eq_some_iff.mp hx).1
            exact ⟨_, List.getElem?_eq_getElem (by omega)⟩
          rw [hy]
          refine localtime_eq hkeyed hsorted hy
            (hbefore _ y (by omega) hy).le fun z hz => ?_
          rw [Nat.sub_add_cancel (by omega), hx] at hz
          cases hz
          omega
      · -- every key is smaller
        rename_i hnone
        rw [List.getLast?_eq_getElem?]
        have hlen : data.transitions.length ≤
            lowerBound data.transitions sentry comp :=
          List.getElem?_eq_none_iff.mp hnone
        have hpos : 0 < data.transitions.length := by
          rw [hcons]
          exact Nat.succ_pos _
        obtain ⟨x, hx⟩ : ∃ x,
            data.transitions[data.transitions.length - 1]? = some x :=
          ⟨_, List.getElem?_eq_getElem (by omega)⟩
        rw [hx]
        refine localtime_eq hkeyed hsorted hx
          (hbefore _ x (by omega) hx).le fun y hy => ?_
        rw [Nat.sub_add_cancel hpos, List.getElem?_length] at hy
        cases hy

end Lookup

/-! ## There and back -/

/-- The fields of a time as the rule shows it. -/
def localTm (data : Data) (loc : Localtime) (t : ℤ) : Tm :=
  { gmtimeR (t + loc.gmtOffset) with
    isdst := if loc.isDst then 1 else 0
    gmtoff := loc.gmtOffset
    zone := (data.abbreviation.drop loc.arrbIdx).takeWhile (· ≠ 0) }

theorem timegm_eq_fromUtcTime {tm : Tm} (hle : 0 ≤ tm.mon)
    (hlt : tm.mon < 12) : timegm tm = fromUtcTime tm := by
  unfold timegm fromUtcTime
  rw [Int.ediv_eq_zero_of_lt hle hlt, Int.emod_eq_of_lt hle hlt, Int.add_zero]

theorem timegm_localTm {data : Data} {loc : Localtime} {t : ℤ}
    (h : InRange (t + loc.gmtOffset)) :
    timegm (localTm data loc t) = t + loc.gmtOffset := by
  obtain ⟨d, hd, hnumber⟩ := exists_day h
  have hmon : (localTm data loc t).mon = d.month - 1 := by
    rw [localTm, gmtimeR, toUtcTime_eq h hd hnumber]
    rfl
  have hle := d.one_le_month
  have hlt := d.month_le
  calc timegm (localTm data loc t)
      = fromUtcTime (localTm data loc t) :=
        timegm_eq_fromUtcTime (by omega) (by omega)
    _ = fromUtcTime (toUtcTime (t + loc.gmtOffset) true) := rfl
    _ = t + loc.gmtOffset := fromUtcTime_toUtcTime h true

section RoundTrip

variable {data : Data} {zone : Zone} {w : ℤ}

namespace Data.Describes

theorem keyed_gmt (h : data.Describes zone) :
    List.Forall₂ (Keyed data ⟨true⟩) zone.changes data.transitions :=
  h.changes.imp fun _ _ hx => ⟨hx.gmttime, hx.localtimeIdx⟩

theorem keyed_local (h : data.Describes zone) :
    List.Forall₂ (Keyed data ⟨false⟩)
      (zone.changes.map (shown Localtime.gmtOffset)) data.transitions :=
  List.forall₂_map_left_iff.mpr <|
    h.changes.imp fun _ _ hx => ⟨hx.localtime, hx.localtimeIdx⟩

theorem change_mem (h : data.Describes zone) {c : ℤ × Localtime}
    (hc : c ∈ zone.changes) : c.2 ∈ data.localtimes := by
  obtain ⟨i, hi⟩ := List.getElem?_of_mem hc
  obtain ⟨hnone, -⟩ | ⟨c', x, hc', -, hx⟩ := forall₂_getElem? h.changes i
  · rw [hi] at hnone
    cases hnone
  · rw [hi] at hc'
    cases hc'
    exact List.mem_of_getElem? hx.localtimeIdx

theorem cString_ruleAt (h : data.Describes zone) (t : ℤ) :
    cString data.abbreviation (zone.ruleAt t).arrbIdx =
      some ((data.abbreviation.drop (zone.ruleAt t).arrbIdx).takeWhile
        (· ≠ 0)) := by
  refine if_pos (h.abbreviation _ ?_)
  obtain heq | ⟨c, hc, heq⟩ := ruleAt_mem zone.initial zone.changes t
  · rw [Zone.ruleAt, heq]
    exact List.mem_of_mem_head? h.initial
  · rw [Zone.ruleAt, heq]
    exact h.change_mem hc

theorem findLocaltime_gmt (h : data.Describes zone) (hregular : zone.Regular w)
    (t : ℤ) :
    findLocaltime data ⟨t, 0, 0⟩ ⟨true⟩ = some (zone.ruleAt t) :=
  findLocaltime_eq h.initial h.keyed_gmt hregular.sorted _

theorem findLocaltime_local (h : data.Describes zone)
    (hregular : zone.Regular w) (s : ℤ) :
    findLocaltime data ⟨0, s, 0⟩ ⟨false⟩ =
      some (ruleAt zone.initial
        (zone.changes.map (shown Localtime.gmtOffset)) s) :=
  findLocaltime_eq h.initial h.keyed_local hregular.shown_sorted _

theorem toLocalTime_eq (h : data.Describes zone) (hregular : zone.Regular w)
    (t : ℤ) : toLocalTime data t = some (localTm data (zone.ruleAt t) t) := by
  simp only [toLocalTime, h.findLocaltime_gmt hregular, Option.bind_eq_bind,
    Option.bind_some, h.cString_ruleAt]
  rfl

end Data.Describes

/-- The local time is looked up under the rule `loc`; under it the clock shows
the time of the argument at another time. -/
theorem fromLocalTime_eq (hdata : data.Describes zone)
    (hregular : zone.Regular w) {t : ℤ} {loc : Localtime}
    (ht : InRange (t + (zone.ruleAt t).gmtOffset))
    (hshown : ruleAt zone.initial (zone.changes.map (shown Localtime.gmtOffset))
      (t + (zone.ruleAt t).gmtOffset) = loc)
    (hloc : zone.ruleAt
      (t + ((zone.ruleAt t).gmtOffset - loc.gmtOffset)) = loc) :
    fromLocalTime data (localTm data (zone.ruleAt t) t) =
      some (t + ((zone.ruleAt t).gmtOffset - loc.gmtOffset) -
        if (zone.ruleAt t).isDst = true ∧ loc.isDst = false then 3600
        else 0) := by
  have htry : t + (zone.ruleAt t).gmtOffset - loc.gmtOffset =
      t + ((zone.ruleAt t).gmtOffset - loc.gmtOffset) := by omega
  have hsame : localTm data loc
        (t + ((zone.ruleAt t).gmtOffset - loc.gmtOffset)) =
      { localTm data (zone.ruleAt t) t with
        isdst := if loc.isDst then 1 else 0
        gmtoff := loc.gmtOffset
        zone := (data.abbreviation.drop loc.arrbIdx).takeWhile (· ≠ 0) } := by
    simp only [localTm, add_assoc, sub_add_cancel]
  simp only [fromLocalTime, timegm_localTm ht,
    hdata.findLocaltime_local hregular, hshown, htry,
    hdata.toLocalTime_eq hregular, hloc, hsame, Option.bind_eq_bind,
    Option.bind_some]
  cases hsummer : (zone.ruleAt t).isDst <;> cases loc.isDst <;>
    simp [localTm, hsummer] <;> omega

/-- Reading the local time of a time `t` back gives `t`, unless the clock is
about to be set back over the time it shows; then it gives `t` exactly if it
is set back by an hour from summer to winter. -/
theorem local_round_trip (hdata : data.Describes zone)
    (hregular : zone.Regular w) {t : ℤ}
    (ht : InRange (t + (zone.ruleAt t).gmtOffset)) :
    ∃ tm, toLocalTime data t = some tm ∧
      timegm tm = t + (zone.ruleAt t).gmtOffset ∧
      (fromLocalTime data tm = some t ↔
        ∀ c ∈ zone.changes,
          SetsBack Localtime.gmtOffset (zone.ruleAt t) t c →
            (zone.ruleAt t).gmtOffset = c.2.gmtOffset + 3600 ∧
              (zone.ruleAt t).isDst = true ∧ c.2.isDst = false) := by
  refine ⟨_, hdata.toLocalTime_eq hregular t, timegm_localTm ht, ?_⟩
  by_cases hback : ∃ c ∈ zone.changes,
      SetsBack Localtime.gmtOffset (zone.ruleAt t) t c
  · obtain ⟨c, hc, hsets⟩ := hback
    obtain ⟨hshown, hloc⟩ := hregular.ruleAt_shown_setsBack hc hsets
    rw [fromLocalTime_eq hdata hregular ht hshown hloc, Option.some.injEq]
    constructor
    · intro heq d hd hsetsd
      have hd2 : d.2 = c.2 :=
        (hregular.ruleAt_shown_setsBack hd hsetsd).1.symm.trans hshown
      rw [hd2]
      obtain ⟨hsoon, hover⟩ := hsets
      split_ifs at heq with hdst
      · exact ⟨by omega, hdst⟩
      · omega
    · intro h
      obtain ⟨hhour, hdst⟩ := h c hc hsets
      rw [if_pos hdst]
      omega
  · have hnot : ∀ c ∈ zone.changes,
        ¬ SetsBack Localtime.gmtOffset (zone.ruleAt t) t c :=
      fun c hc hsets => hback ⟨c, hc, hsets⟩
    have hshown : ruleAt zone.initial _ (t + (zone.ruleAt t).gmtOffset) =
      zone.ruleAt t := hregular.ruleAt_shown hnot
    have hsummer : ¬ ((zone.ruleAt t).isDst = true ∧
        (zone.ruleAt t).isDst = false) := by simp
    rw [fromLocalTime_eq hdata hregular ht hshown
      (by rw [sub_self, add_zero]), if_neg hsummer, sub_self, add_zero, sub_zero]
    exact iff_of_true rfl fun c hc hsets => absurd hsets (hnot c hc)

/-- New York in the year 2013: an hour before the end of the summer time. -/
theorem local_round_trip_new_york :
    let edt : Localtime := ⟨-14400, true, 0⟩
    let est : Localtime := ⟨-18000, false, 4⟩
    let zone : Zone := ⟨est, [(1362898800, edt), (1383458400, est)]⟩
    let data : Data :=
      ⟨[⟨1362898800, 1362884400, 1⟩, ⟨1383458400, 1383440400, 0⟩], [est, edt],
        [69, 68, 84, 0, 69, 83, 84, 0]⟩
    ∃ tm, toLocalTime data 1383456600 = some tm ∧
      timegm tm = 1383456600 + (zone.ruleAt 1383456600).gmtOffset ∧
      (fromLocalTime data tm = some 1383456600 ↔
        ∀ c ∈ zone.changes,
          SetsBack Localtime.gmtOffset (zone.ruleAt 1383456600) 1383456600 c →
            (zone.ruleAt 1383456600).gmtOffset = c.2.gmtOffset + 3600 ∧
              (zone.ruleAt 1383456600).isDst = true ∧ c.2.isDst = false) :=
  local_round_trip (w := 3600)
    ⟨rfl, .cons ⟨rfl, rfl, rfl⟩ (.cons ⟨rfl, rfl, rfl⟩ .nil), by decide⟩
    ⟨by decide, by decide, by decide⟩ ⟨by decide, by decide⟩

end RoundTrip

/-! ## Zones without changes -/

def Zone.fixed (eastOfUtc : ℤ) : Zone := ⟨⟨eastOfUtc, false, 0⟩, []⟩

theorem describes_fixed (eastOfUtc : ℤ) (name : Bytes) :
    (Data.fixed eastOfUtc name).Describes (.fixed eastOfUtc) where
  initial := rfl
  changes := .nil
  abbreviation loc hloc := by
    obtain rfl := List.mem_singleton.mp hloc
    exact Nat.zero_le _

/-- With a fixed offset every local time is read back. -/
theorem fixed_round_trip (eastOfUtc : ℤ) (name : Bytes) {t : ℤ}
    (ht : InRange (t + eastOfUtc)) :
    ∃ tm, toLocalTime (Data.fixed eastOfUtc name) t = some tm ∧
      timegm tm = t + eastOfUtc ∧
      fromLocalTime (Data.fixed eastOfUtc name) tm = some t := by
  have hdata := describes_fixed eastOfUtc name
  have hregular : (Zone.fixed eastOfUtc).Regular 0 :=
    ⟨by simp [Zone.fixed], by simp [Zone.fixed], by simp [Zone.fixed]⟩
  refine ⟨_, hdata.toLocalTime_eq hregular t, timegm_localTm ht, ?_⟩
  have hread := fromLocalTime_eq hdata hregular ht rfl rfl
  have hback : t + (eastOfUtc - eastOfUtc) - 0 = t := by omega
  exact hread.trans (congrArg some hback)

/-- Tokyo, before the epoch. -/
theorem fixed_round_trip_tokyo :
    ∃ tm, toLocalTime (Data.fixed 32400 (ascii "JST")) (-1) = some tm ∧
      timegm tm = -1 + 32400 ∧
      fromLocalTime (Data.fixed 32400 (ascii "JST")) tm = some (-1) :=
  fixed_round_trip 32400 (ascii "JST") ⟨by decide, by decide⟩

end TimeZone

end MuduoHttp
