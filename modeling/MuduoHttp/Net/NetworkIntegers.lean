import MuduoHttp.Net.RawBuffer
import MuduoHttp.Support.Endian

/-!
# Integers in network order

A `Buffer` takes and gives integers of four widths.  All but the narrowest are
swapped on the way, since the host is little-endian, so that the high byte of
the two's complement comes first.
-/

namespace MuduoHttp

open Support

/-! ## `sockets` -/

def hostToNetwork64 (host64 : BitVec 64) : BitVec 64 := byteSwap 8 host64

def hostToNetwork32 (host32 : BitVec 32) : BitVec 32 := byteSwap 4 host32

def hostToNetwork16 (host16 : BitVec 16) : BitVec 16 := byteSwap 2 host16

def networkToHost64 (net64 : BitVec 64) : BitVec 64 := byteSwap 8 net64

def networkToHost32 (net32 : BitVec 32) : BitVec 32 := byteSwap 4 net32

def networkToHost16 (net16 : BitVec 16) : BitVec 16 := byteSwap 2 net16

namespace RawBuffer

/-! ## Words of any width -/

/-- Append the memory of a word. -/
def appendWord (s : RawBuffer) (n : ℕ) (be : Word n) : Option RawBuffer :=
  s.append (memory n be)

/-- `memcpy` of a word from `peek()`, after the assert. -/
def peekWord (s : RawBuffer) (n : ℕ) : Option (Word n) :=
  if n ≤ s.readableBytes then some (ofMemory n (s.copyFrom n)) else none

/-- Prepend the memory of a word. -/
def prependWord (s : RawBuffer) (n : ℕ) (be : Word n) : Option RawBuffer :=
  s.prepend (memory n be)

/-! ## The four widths -/

def appendInt64 (s : RawBuffer) (x : BitVec 64) : Option RawBuffer :=
  s.appendWord 8 (hostToNetwork64 x)

def appendInt32 (s : RawBuffer) (x : BitVec 32) : Option RawBuffer :=
  s.appendWord 4 (hostToNetwork32 x)

def appendInt16 (s : RawBuffer) (x : BitVec 16) : Option RawBuffer :=
  s.appendWord 2 (hostToNetwork16 x)

def appendInt8 (s : RawBuffer) (x : BitVec 8) : Option RawBuffer :=
  s.appendWord 1 x

def peekInt64 (s : RawBuffer) : Option (BitVec 64) :=
  (s.peekWord 8).map networkToHost64

def peekInt32 (s : RawBuffer) : Option (BitVec 32) :=
  (s.peekWord 4).map networkToHost32

def peekInt16 (s : RawBuffer) : Option (BitVec 16) :=
  (s.peekWord 2).map networkToHost16

def peekInt8 (s : RawBuffer) : Option (BitVec 8) := s.peekWord 1

def retrieveInt64 (s : RawBuffer) : Option RawBuffer := s.retrieve 8

def retrieveInt32 (s : RawBuffer) : Option RawBuffer := s.retrieve 4

def retrieveInt16 (s : RawBuffer) : Option RawBuffer := s.retrieve 2

def retrieveInt8 (s : RawBuffer) : Option RawBuffer := s.retrieve 1

def readInt64 (s : RawBuffer) : Option (BitVec 64 × RawBuffer) := do
  let result ← s.peekInt64
  let s ← s.retrieveInt64
  some (result, s)

def readInt32 (s : RawBuffer) : Option (BitVec 32 × RawBuffer) := do
  let result ← s.peekInt32
  let s ← s.retrieveInt32
  some (result, s)

def readInt16 (s : RawBuffer) : Option (BitVec 16 × RawBuffer) := do
  let result ← s.peekInt16
  let s ← s.retrieveInt16
  some (result, s)

def readInt8 (s : RawBuffer) : Option (BitVec 8 × RawBuffer) := do
  let result ← s.peekInt8
  let s ← s.retrieveInt8
  some (result, s)

def prependInt64 (s : RawBuffer) (x : BitVec 64) : Option RawBuffer :=
  s.prependWord 8 (hostToNetwork64 x)

def prependInt32 (s : RawBuffer) (x : BitVec 32) : Option RawBuffer :=
  s.prependWord 4 (hostToNetwork32 x)

def prependInt16 (s : RawBuffer) (x : BitVec 16) : Option RawBuffer :=
  s.prependWord 2 (hostToNetwork16 x)

def prependInt8 (s : RawBuffer) (x : BitVec 8) : Option RawBuffer :=
  s.prependWord 1 x

end RawBuffer

/-! ## Mixed integers -/

inductive IntWidth
  | int8
  | int16
  | int32
  | int64
  deriving DecidableEq, Repr

/-- An integer of one of the four widths. -/
inductive NetInt
  | int8 (x : BitVec 8)
  | int16 (x : BitVec 16)
  | int32 (x : BitVec 32)
  | int64 (x : BitVec 64)
  deriving DecidableEq, Repr

namespace NetInt

def width : NetInt → IntWidth
  | .int8 _ => .int8
  | .int16 _ => .int16
  | .int32 _ => .int32
  | .int64 _ => .int64

/-- The big-endian two's complement. -/
def bytes : NetInt → Bytes
  | .int8 x => twosComplement 1 x.toInt
  | .int16 x => twosComplement 2 x.toInt
  | .int32 x => twosComplement 4 x.toInt
  | .int64 x => twosComplement 8 x.toInt

def append (s : RawBuffer) : NetInt → Option RawBuffer
  | .int8 x => s.appendInt8 x
  | .int16 x => s.appendInt16 x
  | .int32 x => s.appendInt32 x
  | .int64 x => s.appendInt64 x

def prepend (s : RawBuffer) : NetInt → Option RawBuffer
  | .int8 x => s.prependInt8 x
  | .int16 x => s.prependInt16 x
  | .int32 x => s.prependInt32 x
  | .int64 x => s.prependInt64 x

def read (s : RawBuffer) : IntWidth → Option (NetInt × RawBuffer)
  | .int8 => s.readInt8.map fun (x, s) => (.int8 x, s)
  | .int16 => s.readInt16.map fun (x, s) => (.int16 x, s)
  | .int32 => s.readInt32.map fun (x, s) => (.int32 x, s)
  | .int64 => s.readInt64.map fun (x, s) => (.int64 x, s)

/-- The integers appended one after the other. -/
def appendAll (s : RawBuffer) : List NetInt → Option RawBuffer
  | [] => some s
  | x :: values => do
      let s ← append s x
      appendAll s values

/-- Integers of the given widths read one after the other. -/
def readAll (s : RawBuffer) :
    List IntWidth → Option (List NetInt × RawBuffer)
  | [] => some ([], s)
  | width :: widths => do
      let (x, s) ← read s width
      let (values, s) ← readAll s widths
      some (x :: values, s)

end NetInt

/-! ## Round trips -/

namespace RawBuffer

variable {s : RawBuffer} {q : Bytes}

/-- A word in front of the content is read and retrieved. -/
theorem Represents.readWord {n : ℕ} {x : Word n}
    (h : s.Represents (memory n x ++ q)) :
    s.peekWord n = some x ∧
      ∃ s', s.retrieve n = some s' ∧ s'.Represents q := by
  have hfits : n ≤ (memory n x ++ q).length := by
    rw [List.length_append, length_memory]
    exact Nat.le_add_right _ _
  have htake : (memory n x ++ q).take n = memory n x :=
    List.take_left' (length_memory n x)
  have hdrop : (memory n x ++ q).drop n = q :=
    List.drop_left' (length_memory n x)
  constructor
  · rw [RawBuffer.peekWord, h.readableBytes, if_pos hfits, h.copyFrom hfits,
      htake, ofMemory_memory]
  · have hrest := h.retrieve hfits
    rwa [hdrop] at hrest

end RawBuffer

theorem memory_one (x : BitVec 8) : memory 1 x = twosComplement 1 x.toInt := by
  rw [← bigEndian_toNat 1 x]
  rfl

theorem memory_hostToNetwork (n : ℕ) (x : Word n) :
    memory n (byteSwap n x) = twosComplement n x.toInt := by
  rw [memory_byteSwap, bigEndian_toNat]

namespace NetInt

variable {s : RawBuffer} {q : Bytes}

theorem represents_append (h : s.Represents q) (x : NetInt) :
    ∃ s', append s x = some s' ∧ s'.Represents (q ++ x.bytes) := by
  cases x with
  | int8 x =>
      rw [bytes, ← memory_one]
      exact h.append _
  | int16 x =>
      rw [bytes, ← memory_hostToNetwork 2 x]
      exact h.append _
  | int32 x =>
      rw [bytes, ← memory_hostToNetwork 4 x]
      exact h.append _
  | int64 x =>
      rw [bytes, ← memory_hostToNetwork 8 x]
      exact h.append _

theorem represents_prepend (h : s.Represents q) (x : NetInt)
    (hroom : x.bytes.length ≤ s.prependableBytes) :
    ∃ s', prepend s x = some s' ∧ s'.Represents (x.bytes ++ q) := by
  cases x with
  | int8 x =>
      rw [bytes, ← memory_one] at hroom ⊢
      exact h.prepend hroom
  | int16 x =>
      rw [bytes, ← memory_hostToNetwork 2 x] at hroom ⊢
      exact h.prepend hroom
  | int32 x =>
      rw [bytes, ← memory_hostToNetwork 4 x] at hroom ⊢
      exact h.prepend hroom
  | int64 x =>
      rw [bytes, ← memory_hostToNetwork 8 x] at hroom ⊢
      exact h.prepend hroom

/-- An integer in front of the content is read back. -/
theorem represents_read (x : NetInt) (h : s.Represents (x.bytes ++ q)) :
    ∃ s', read s x.width = some (x, s') ∧ s'.Represents q := by
  cases x with
  | int8 x =>
      rw [bytes, ← memory_one] at h
      obtain ⟨hpeek, s', hs', hrest⟩ := h.readWord
      refine ⟨s', ?_, hrest⟩
      simp [read, width, RawBuffer.readInt8, RawBuffer.peekInt8, hpeek,
        RawBuffer.retrieveInt8, hs']
  | int16 x =>
      rw [bytes, ← memory_hostToNetwork 2 x] at h
      obtain ⟨hpeek, s', hs', hrest⟩ := h.readWord
      refine ⟨s', ?_, hrest⟩
      simp [read, width, RawBuffer.readInt16, RawBuffer.peekInt16, hpeek,
        RawBuffer.retrieveInt16, hs', networkToHost16, byteSwap_byteSwap]
  | int32 x =>
      rw [bytes, ← memory_hostToNetwork 4 x] at h
      obtain ⟨hpeek, s', hs', hrest⟩ := h.readWord
      refine ⟨s', ?_, hrest⟩
      simp [read, width, RawBuffer.readInt32, RawBuffer.peekInt32, hpeek,
        RawBuffer.retrieveInt32, hs', networkToHost32, byteSwap_byteSwap]
  | int64 x =>
      rw [bytes, ← memory_hostToNetwork 8 x] at h
      obtain ⟨hpeek, s', hs', hrest⟩ := h.readWord
      refine ⟨s', ?_, hrest⟩
      simp [read, width, RawBuffer.readInt64, RawBuffer.peekInt64, hpeek,
        RawBuffer.retrieveInt64, hs', networkToHost64, byteSwap_byteSwap]

theorem represents_appendAll (h : s.Represents q) (values : List NetInt) :
    ∃ s', appendAll s values = some s' ∧
      s'.Represents (q ++ values.flatMap bytes) := by
  induction values generalizing s q with
  | nil => exact ⟨s, rfl, by rwa [List.flatMap_nil, List.append_nil]⟩
  | cons x values ih =>
      obtain ⟨s₁, hs₁, hfirst⟩ := represents_append h x
      obtain ⟨s', hs', hall⟩ := ih hfirst
      refine ⟨s', by simp [appendAll, hs₁, hs'], ?_⟩
      rwa [List.flatMap_cons, ← List.append_assoc]

theorem represents_readAll (values : List NetInt)
    (h : s.Represents (values.flatMap bytes ++ q)) :
    ∃ s', readAll s (values.map width) = some (values, s') ∧
      s'.Represents q := by
  induction values generalizing s with
  | nil => exact ⟨s, rfl, h⟩
  | cons x values ih =>
      rw [List.flatMap_cons, List.append_assoc] at h
      obtain ⟨s₁, hs₁, hmore⟩ := represents_read x h
      obtain ⟨s', hs', hrest⟩ := ih hmore
      exact ⟨s', by simp [readAll, hs₁, hs'], hrest⟩

end NetInt

/-- Integers appended behind any content are their big-endian two's
complements, and read back, once the content is retrieved, until the buffer is
empty; an integer that is prepended is read back and leaves the content. -/
theorem integers_round_trip {s : RawBuffer} {c : Bytes} (h : s.Represents c) :
    (∀ values : List NetInt,
      ∃ s₁ s₂ s₃, NetInt.appendAll s values = some s₁ ∧
        s₁.Represents (c ++ values.flatMap NetInt.bytes) ∧
        s₁.retrieve c.length = some s₂ ∧
        NetInt.readAll s₂ (values.map NetInt.width) = some (values, s₃) ∧
        s₃.Represents []) ∧
      ∀ x : NetInt, x.bytes.length ≤ s.prependableBytes →
        ∃ s₁ s₂, NetInt.prepend s x = some s₁ ∧
          s₁.Represents (x.bytes ++ c) ∧
          NetInt.read s₁ x.width = some (x, s₂) ∧ s₂.Represents c := by
  constructor
  · intro values
    obtain ⟨s₁, hs₁, happended⟩ := NetInt.represents_appendAll h values
    obtain ⟨s₂, hs₂, hvalues⟩ := happended.retrieve
      (show c.length ≤ _ by simp)
    rw [List.drop_left, ← List.append_nil (values.flatMap _)] at hvalues
    obtain ⟨s₃, hs₃, hempty⟩ := NetInt.represents_readAll values hvalues
    exact ⟨s₁, s₂, s₃, hs₁, happended, hs₂, hs₃, hempty⟩
  · intro x hroom
    obtain ⟨s₁, hs₁, hprepended⟩ := NetInt.represents_prepend h x hroom
    obtain ⟨s₂, hs₂, hcontent⟩ := NetInt.represents_read x hprepended
    exact ⟨s₁, s₂, hs₁, hprepended, hs₂, hcontent⟩

/-- Two negative integers behind nothing, and one in front of it. -/
theorem integers_round_trip_negative :
    (∃ s₁ s₂ s₃,
      NetInt.appendAll (RawBuffer.new 1024) [.int16 (-2), .int64 (-1)] =
          some s₁ ∧
        s₁.Represents ([255, 254] ++ List.replicate 8 255) ∧
        s₁.retrieve 0 = some s₂ ∧
        NetInt.readAll s₂ [.int16, .int64] =
          some ([.int16 (-2), .int64 (-1)], s₃) ∧
        s₃.Represents []) ∧
      ∃ s₁ s₂, NetInt.prepend (RawBuffer.new 1024) (.int16 (-2)) = some s₁ ∧
        s₁.Represents [255, 254] ∧
        NetInt.read s₁ .int16 = some (.int16 (-2), s₂) ∧ s₂.Represents [] := by
  have h := integers_round_trip (RawBuffer.represents_new 1024)
  exact ⟨h.1 [.int16 (-2), .int64 (-1)], h.2 (.int16 (-2)) (by decide)⟩

end MuduoHttp
