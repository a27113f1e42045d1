import Mathlib.Data.List.Basic

/-!
# Channels

The events a channel is interested in, its entry in the poll table of its
loop, and the order in which `handleEvent` calls the handlers.
-/

namespace MuduoHttp

/-- The bits of a `revents` mask that `handleEvent` looks at. -/
structure Revents where
  pollIn : Bool := false
  pollPri : Bool := false
  pollOut : Bool := false
  pollErr : Bool := false
  pollHup : Bool := false
  pollNval : Bool := false
  pollRdHup : Bool := false

/-- The callbacks of a connection's channel. -/
inductive Handler
  | handleClose
  | handleError
  | handleRead
  | handleWrite
  deriving DecidableEq, Repr

/-- The channel's entry in `pollfds_`: not yet there, there with the
descriptor, there with the negated descriptor, or removed. -/
inductive PollEntry
  | absent
  | watched
  | ignored
  | removed
  deriving DecidableEq, Repr

/-- `events_`, as the two interests a connection has, and the poll entry. -/
structure Channel where
  reading : Bool := false
  writing : Bool := false
  entry : PollEntry := .absent

namespace Channel

def isNoneEvent (c : Channel) : Bool := !c.reading && !c.writing

def isWriting (c : Channel) : Bool := c.writing

/-- `Poller::updateChannel`.  An entry that is ignored stays so: the
descriptor is negated when there is no interest, and never put back. -/
def update (c : Channel) : Channel :=
  match c.entry with
  | .absent => { c with entry := .watched }
  | .watched => if c.isNoneEvent then { c with entry := .ignored } else c
  | .ignored => c
  | .removed => c

def enableReading (c : Channel) : Channel := { c with reading := true }.update

def enableWriting (c : Channel) : Channel := { c with writing := true }.update

def disableWriting (c : Channel) : Channel :=
  { c with writing := false }.update

def disableAll (c : Channel) : Channel :=
  { c with reading := false, writing := false }.update

/-- `EventLoop::removeChannel`. -/
def remove (c : Channel) : Channel := { c with entry := .removed }

theorem isWriting_update (c : Channel) : c.update.isWriting = c.isWriting := by
  unfold update
  split
  · rfl
  · split <;> rfl
  · rfl
  · rfl

@[simp] theorem isWriting_enableReading (c : Channel) :
    c.enableReading.isWriting = c.isWriting :=
  isWriting_update { c with reading := true }

@[simp] theorem isWriting_enableWriting (c : Channel) :
    c.enableWriting.isWriting = true :=
  isWriting_update { c with writing := true }

/-- The handlers that one event calls, in order. -/
def handleEvent (revents : Revents) : List Handler :=
  (if revents.pollHup && !revents.pollIn then [.handleClose] else []) ++
    (if revents.pollErr || revents.pollNval then [.handleError] else []) ++
    (if revents.pollIn || revents.pollPri || revents.pollRdHup then
      [.handleRead] else []) ++
    if revents.pollOut then [.handleWrite] else []

/-- What an update can do to the entry of a channel that is registered. -/
def EntryStep (before after : PollEntry) : Prop :=
  before ≠ .absent →
    after = before ∨ (before = .watched ∧ after = .ignored)

theorem EntryStep.refl (entry : PollEntry) : EntryStep entry entry :=
  fun _ => .inl rfl

theorem EntryStep.trans {e₁ e₂ e₃ : PollEntry} (h₁ : EntryStep e₁ e₂)
    (h₂ : EntryStep e₂ e₃) : EntryStep e₁ e₃ := by
  intro hne
  rcases h₁ hne with rfl | ⟨rfl, rfl⟩
  · exact h₂ hne
  · rcases h₂ (by decide) with rfl | ⟨habs, -⟩
    · exact .inr ⟨rfl, rfl⟩
    · cases habs

theorem update_entry (c : Channel) : EntryStep c.entry c.update.entry := by
  intro hne
  unfold update
  cases hentry : c.entry with
  | absent => exact absurd hentry hne
  | watched =>
      by_cases hnone : c.isNoneEvent = true
      · exact .inr ⟨rfl, by simp [hnone]⟩
      · exact .inl (by simp [hnone, hentry])
  | ignored => exact .inl (by simp [hentry])
  | removed => exact .inl (by simp [hentry])

theorem enableWriting_entry (c : Channel) :
    EntryStep c.entry c.enableWriting.entry :=
  update_entry { c with writing := true }

theorem disableWriting_entry (c : Channel) :
    EntryStep c.entry c.disableWriting.entry :=
  update_entry { c with writing := false }

/-- A channel without interest is not watched. -/
theorem disableAll_entry (c : Channel)
    (h : c.entry = .watched ∨ c.entry = .ignored) :
    c.disableAll.entry = .ignored := by
  rcases h with h | h <;> simp [disableAll, update, h, isNoneEvent]

end Channel

end MuduoHttp
