import Mathlib.Data.Int.Order.Basic
import Mathlib.Logic.Function.Basic
import Std.Data.ExtTreeMap.Lemmas
import MuduoHttp.Support.Transition

/-!
# The poll table

`Poller` keeps an array of `pollfd` for `poll`, a map from descriptors to
channels, and in every channel the index of its entry.  A channel without
interest has its descriptor negated in the table.  Removing a channel moves
the last entry into the hole.

A function has no result when one of its asserts fails.
-/

namespace MuduoHttp

open Support

/-- The interest sets of a channel, made of `kReadEvent` and `kWriteEvent`. -/
structure Interest where
  reading : Bool := false
  writing : Bool := false
  deriving DecidableEq, Repr

/-- `kNoneEvent`. -/
def Interest.IsNone (events : Interest) : Prop :=
  events.reading = false ∧ events.writing = false

instance (events : Interest) : Decidable events.IsNone :=
  inferInstanceAs (Decidable (_ ∧ _))

/-- A `Channel`, as far as the poller uses it.  `index_` is -1 at first. -/
structure PollChannel where
  fd : ℕ
  events : Interest := {}
  revents : ℕ := 0
  index : ℤ := -1

/-- `struct pollfd`. -/
structure PollFd where
  fd : ℤ
  events : Interest
  revents : ℕ := 0

/-- `ownerLoop_` left out: the channels are the objects in memory. -/
structure Poller (C : Type*) where
  channel : C → PollChannel
  pollfds : List PollFd := []
  channels : Std.ExtTreeMap ℤ C compare := ∅

namespace Poller

variable {C : Type*} [DecidableEq C]

/-- `-fd-1`, with which the entry is ignored by `poll`. -/
def negated (fd : ℕ) : ℤ := -fd - 1

/-- A channel with a new state. -/
def setChannel (s : Poller C) (c : C) (ch : PollChannel) : Poller C :=
  { s with channel := Function.update s.channel c ch }

def updateChannel (s : Poller C) (c : C) : Option (Poller C) :=
  let ch := s.channel c
  if ch.index < 0 then
    if s.channels.contains ch.fd then none
    else
      let s := s.setChannel c { ch with index := s.pollfds.length }
      some
        { s with
          pollfds := s.pollfds ++ [{ fd := ch.fd, events := ch.events }]
          channels := s.channels.insert ch.fd c }
  else if s.channels[(ch.fd : ℤ)]? = some c then
    match s.pollfds[ch.index.toNat]? with
    | none => none
    | some pfd =>
        if pfd.fd = ch.fd ∨ pfd.fd = negated ch.fd then
          let fd := if ch.events.IsNone then negated ch.fd else pfd.fd
          some
            { s with
              pollfds :=
                s.pollfds.set ch.index.toNat { fd := fd, events := ch.events } }
        else none
  else none

/-- The descriptor of an entry, ignored or not. -/
def channelFd (fd : ℤ) : ℤ := if fd < 0 then -fd - 1 else fd

def removeChannel (s : Poller C) (c : C) : Option (Poller C) :=
  let ch := s.channel c
  let idx := ch.index.toNat
  if s.channels[(ch.fd : ℤ)]? = some c ∧ ch.events.IsNone ∧ 0 ≤ ch.index then
    match s.pollfds[idx]?, s.pollfds.getLast? with
    | some pfd, some back =>
        if pfd.fd = negated ch.fd ∧ pfd.events = ch.events then
          let s := { s with channels := s.channels.erase ch.fd }
          if idx = s.pollfds.length - 1 then
            some { s with pollfds := s.pollfds.dropLast }
          else
            let swapped :=
              (s.pollfds.set idx back).set (s.pollfds.length - 1) pfd
            match s.channels[channelFd back.fd]? with
            | none => none
            | some last =>
                let s := s.setChannel last
                  { s.channel last with index := idx }
                some { s with pollfds := swapped.dropLast }
        else none
    | _, _ => none
  else none

/-- The loop of `fillActiveChannels` on the rest of the table: the active
channels and the poller with their `revents_` set. -/
def fillActive (s : Poller C) : List PollFd → ℕ → Option (List C × Poller C)
  | [], _ => some ([], s)
  | _, 0 => some ([], s)
  | pfd :: rest, numEvents + 1 =>
      if 0 < pfd.revents then
        match s.channels[pfd.fd]? with
        | none => none
        | some c =>
            if ((s.channel c).fd : ℤ) = pfd.fd then
              (fillActive
                (s.setChannel c { s.channel c with revents := pfd.revents })
                rest numEvents).map fun (active, s) => (c :: active, s)
            else none
      else fillActive s rest (numEvents + 1)

def fillActiveChannels (s : Poller C) (numEvents : ℕ) :
    Option (List C × Poller C) :=
  s.fillActive s.pollfds numEvents

/-- The table after `::poll`, which reports nothing for an entry with a
negative descriptor. -/
def polled (s : Poller C) (report : ℕ → ℕ) : Poller C :=
  { s with
    pollfds := s.pollfds.mapIdx fun i pfd =>
      { pfd with revents := if pfd.fd < 0 then 0 else report i } }

/-- The number of ready entries, the result of `::poll`. -/
def numEvents (s : Poller C) : ℕ :=
  s.pollfds.countP fun pfd => 0 < pfd.revents

def poll (s : Poller C) (report : ℕ → ℕ) : Option (List C × Poller C) :=
  let s := s.polled report
  if 0 < s.numEvents then s.fillActiveChannels s.numEvents else some ([], s)

end Poller

end MuduoHttp
