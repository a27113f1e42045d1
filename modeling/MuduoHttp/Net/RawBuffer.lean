import Mathlib.Logic.Function.Basic
import MuduoHttp.Net.Buffer
import MuduoHttp.Support.Segment
import MuduoHttp.Support.Transition

/-!
# The representation of a buffer

A `Buffer` is a vector with two indices.  Its readable bytes lie between them
and behave as a queue: what the other modules take a buffer for.

The sizes of buffers stay far below the range of `int` and `size_t`, and are
natural numbers here.  An operation has no result when an assert of the source
fails.
-/

namespace MuduoHttp

open Support

/-- `buffer_`, `readerIndex_` and `writerIndex_`. -/
structure RawBuffer where
  buffer : Bytes
  readerIndex : ℕ
  writerIndex : ℕ

namespace RawBuffer

def kCheapPrepend : ℕ := 8

def kInitialSize : ℕ := 1024

/-- The size of `extrabuf` in `readFd`. -/
def extrabufSize : ℕ := 65536

/-- The constructor. -/
def new (initialSize : ℕ) : RawBuffer where
  buffer := List.replicate (kCheapPrepend + initialSize) 0
  readerIndex := kCheapPrepend
  writerIndex := kCheapPrepend

def readableBytes (s : RawBuffer) : ℕ := s.writerIndex - s.readerIndex

def writableBytes (s : RawBuffer) : ℕ := s.buffer.length - s.writerIndex

def prependableBytes (s : RawBuffer) : ℕ := s.readerIndex

/-- The bytes from `peek()` to `beginWrite()`. -/
def content (s : RawBuffer) : Bytes :=
  segment s.buffer s.readerIndex s.writerIndex

/-- `std::vector::resize`. -/
def resize (l : Bytes) (n : ℕ) : Bytes :=
  l.take n ++ List.replicate (n - l.length) 0

def retrieveAll (s : RawBuffer) : RawBuffer :=
  { s with readerIndex := kCheapPrepend, writerIndex := kCheapPrepend }

def retrieve (s : RawBuffer) (len : ℕ) : Option RawBuffer :=
  if len ≤ s.readableBytes then
    if len < s.readableBytes then
      some { s with readerIndex := s.readerIndex + len }
    else some s.retrieveAll
  else none

/-- A copy of `n` bytes from `peek()` on. -/
def copyFrom (s : RawBuffer) (n : ℕ) : Bytes :=
  segment s.buffer s.readerIndex (s.readerIndex + n)

def retrieveAsString (s : RawBuffer) (len : ℕ) : Option (Bytes × RawBuffer) :=
  if len ≤ s.readableBytes then
    (s.retrieve len).map fun s' =>
      (segment s.buffer s.readerIndex (s.readerIndex + len), s')
  else none

/-- Grow the vector, or move the readable bytes to the front. -/
def makeSpace (s : RawBuffer) (len : ℕ) : Option RawBuffer :=
  if s.writableBytes + s.prependableBytes < len + kCheapPrepend then
    some { s with buffer := resize s.buffer (s.writerIndex + len) }
  else if kCheapPrepend < s.readerIndex then
    some
      { buffer := overwrite s.buffer kCheapPrepend s.content
        readerIndex := kCheapPrepend
        writerIndex := kCheapPrepend + s.readableBytes }
  else none

def ensureWritableBytes (s : RawBuffer) (len : ℕ) : Option RawBuffer := do
  let s ← if s.writableBytes < len then s.makeSpace len else some s
  if len ≤ s.writableBytes then some s else none

def hasWritten (s : RawBuffer) (len : ℕ) : Option RawBuffer :=
  if len ≤ s.writableBytes then
    some { s with writerIndex := s.writerIndex + len }
  else none

/-- Bytes stored from `beginWrite()` on. -/
def store (s : RawBuffer) (data : Bytes) : RawBuffer :=
  { s with buffer := overwrite s.buffer s.writerIndex data }

def append (s : RawBuffer) (data : Bytes) : Option RawBuffer := do
  let s ← s.ensureWritableBytes data.length
  (s.store data).hasWritten data.length

def unwrite (s : RawBuffer) (len : ℕ) : Option RawBuffer :=
  if len ≤ s.readableBytes then
    some { s with writerIndex := s.writerIndex - len }
  else none

def prepend (s : RawBuffer) (data : Bytes) : Option RawBuffer :=
  if data.length ≤ s.prependableBytes then
    some
      { s with
        readerIndex := s.readerIndex - data.length
        buffer := overwrite s.buffer (s.readerIndex - data.length) data }
  else none

def shrink (s : RawBuffer) (reserve : ℕ) : Option RawBuffer := do
  let other ← (new kInitialSize).ensureWritableBytes
    (s.readableBytes + reserve)
  other.append s.content

/-- The space that `readFd` offers to `readv`. -/
def offered (s : RawBuffer) : ℕ :=
  s.writableBytes +
    if s.writableBytes < extrabufSize then extrabufSize else 0

/-- What `readv` reads, if it does not fail, fills the vector first and
`extrabuf` then. -/
def readFd (s : RawBuffer) : Option Bytes → Option RawBuffer
  | none => some s
  | some input =>
      if input.length ≤ s.writableBytes then
        some
          { s.store input with writerIndex := s.writerIndex + input.length }
      else
        RawBuffer.append
          { s.store (input.take s.writableBytes) with
            writerIndex := s.buffer.length }
          (input.drop s.writableBytes)

/-! ## The queue that a buffer represents -/

/-- The indices are in order, the vector has room for the reserved bytes, and
the readable bytes are `q`. -/
structure Represents (s : RawBuffer) (q : Bytes) : Prop where
  cheap : kCheapPrepend ≤ s.buffer.length
  reader_le : s.readerIndex ≤ s.writerIndex
  writer_le : s.writerIndex ≤ s.buffer.length
  content : s.content = q

variable {s : RawBuffer} {q data : Bytes} {len : ℕ}

theorem represents_new (initialSize : ℕ) : (new initialSize).Represents [] where
  cheap := by simp [new]
  reader_le := le_rfl
  writer_le := by simp [new]
  content := segment_self _ _

theorem Represents.readableBytes (h : s.Represents q) :
    s.readableBytes = q.length := by
  rw [← h.content, RawBuffer.content, length_segment h.writer_le,
    RawBuffer.readableBytes]

theorem Represents.retrieveAll (h : s.Represents q) :
    s.retrieveAll.Represents [] where
  cheap := h.cheap
  reader_le := le_rfl
  writer_le := h.cheap
  content := segment_self _ _

theorem Represents.retrieve (h : s.Represents q) (hlen : len ≤ q.length) :
    ∃ s', s.retrieve len = some s' ∧ s'.Represents (q.drop len) := by
  have hreadable := h.readableBytes
  unfold RawBuffer.retrieve
  rw [if_pos (by omega)]
  split
  next hpart =>
    refine ⟨_, rfl, h.cheap, ?_, h.writer_le, ?_⟩
    · change s.readerIndex + len ≤ s.writerIndex
      unfold RawBuffer.readableBytes at hpart
      omega
    · rw [← h.content]
      exact segment_drop s.buffer s.readerIndex s.writerIndex len
  next hall =>
    have hempty : q.drop len = [] := List.drop_eq_nil_of_le (by omega)
    rw [hempty]
    exact ⟨_, rfl, h.retrieveAll⟩

/-- The first readable bytes, in memory. -/
theorem Represents.copyFrom (h : s.Represents q) (hlen : len ≤ q.length) :
    s.copyFrom len = q.take len := by
  have hreadable := h.readableBytes
  have hreader := h.reader_le
  have hwriter := h.writer_le
  unfold RawBuffer.readableBytes at hreadable
  have hsplit : segment s.buffer s.readerIndex s.writerIndex =
      segment s.buffer s.readerIndex (s.readerIndex + len) ++
        segment s.buffer (s.readerIndex + len) s.writerIndex :=
    segment_split (by omega) (by omega) hwriter
  have hlength : (segment s.buffer s.readerIndex
      (s.readerIndex + len)).length = s.readerIndex + len - s.readerIndex :=
    length_segment (by omega)
  rw [← h.content, RawBuffer.content, RawBuffer.copyFrom, hsplit,
    List.take_append_of_le_length (by omega),
    List.take_of_length_le (by omega)]

theorem Represents.retrieveAsString (h : s.Represents q)
    (hlen : len ≤ q.length) :
    ∃ s', s.retrieveAsString len = some (q.take len, s') ∧
      s'.Represents (q.drop len) := by
  have hreadable := h.readableBytes
  obtain ⟨s', hs', hrest⟩ := h.retrieve hlen
  refine ⟨s', ?_, hrest⟩
  unfold RawBuffer.retrieveAsString
  rw [if_pos (by omega), hs', ← h.copyFrom hlen]
  rfl

theorem length_resize (l : Bytes) (n : ℕ) : (resize l n).length = n := by
  simp [resize]
  omega

/-- `makeSpace` is called when there is too little room behind the content.
Then the move, if it is chosen, goes to the front. -/
theorem Represents.makeSpace (h : s.Represents q)
    (hlen : s.writableBytes < len) :
    ∃ s', s.makeSpace len = some s' ∧ s'.Represents q ∧
      len ≤ s'.writableBytes := by
  have hreadable := h.readableBytes
  have hreader := h.reader_le
  have hwriter := h.writer_le
  have hcheap := h.cheap
  unfold RawBuffer.writableBytes at hlen
  unfold RawBuffer.readableBytes at hreadable
  unfold RawBuffer.makeSpace
  split
  next hgrow =>
    have hresize : resize s.buffer (s.writerIndex + len) =
        s.buffer ++ List.replicate
          (s.writerIndex + len - s.buffer.length) 0 := by
      rw [resize, List.take_of_length_le (by omega)]
    refine ⟨_, rfl, ⟨?_, hreader, ?_, ?_⟩, ?_⟩
    · rw [length_resize]
      omega
    · rw [length_resize]
      exact Nat.le_add_right _ _
    · rw [RawBuffer.content, hresize, segment_append hwriter, ← h.content,
        RawBuffer.content]
    · simp only [RawBuffer.writableBytes, length_resize]
      omega
  next hmove =>
    unfold RawBuffer.writableBytes prependableBytes at hmove
    have hfront : kCheapPrepend < s.readerIndex := by omega
    have hcontent : s.content.length = s.writerIndex - s.readerIndex := by
      rw [h.content, hreadable]
    have hlength : (overwrite s.buffer kCheapPrepend s.content).length =
        s.buffer.length := length_overwrite (by omega)
    rw [if_pos hfront]
    refine ⟨_, rfl, ⟨?_, ?_, ?_, ?_⟩, ?_⟩
    · rw [hlength]
      exact hcheap
    · exact Nat.le_add_right _ _
    · rw [hlength]
      simp only [RawBuffer.readableBytes]
      omega
    · have hmoved : segment (overwrite s.buffer kCheapPrepend s.content)
          kCheapPrepend (kCheapPrepend + s.content.length) =
            segment s.buffer kCheapPrepend kCheapPrepend ++ s.content :=
        segment_overwrite_end le_rfl hcheap s.content
      rw [segment_self, List.nil_append, hcontent] at hmoved
      rw [← h.content]
      exact hmoved
    · simp only [RawBuffer.writableBytes, hlength, RawBuffer.readableBytes]
      omega

theorem Represents.ensureWritableBytes (h : s.Represents q) (len : ℕ) :
    ∃ s', s.ensureWritableBytes len = some s' ∧ s'.Represents q ∧
      len ≤ s'.writableBytes := by
  unfold RawBuffer.ensureWritableBytes
  by_cases hroom : s.writableBytes < len
  · obtain ⟨s', hs', hrepresents, hwritable⟩ := h.makeSpace hroom
    exact ⟨s', by simp [hroom, hs', hwritable], hrepresents, hwritable⟩
  · have hwritable := Nat.le_of_not_lt hroom
    exact ⟨s, by simp [hroom, hwritable], h, hwritable⟩

/-- Bytes stored behind the content, of which the writer index takes notice. -/
theorem Represents.store (h : s.Represents q)
    (hlen : data.length ≤ s.writableBytes) :
    RawBuffer.Represents
      { s.store data with writerIndex := s.writerIndex + data.length }
      (q ++ data) := by
  have hwriter := h.writer_le
  unfold RawBuffer.writableBytes at hlen
  have hlength : (overwrite s.buffer s.writerIndex data).length =
      s.buffer.length := length_overwrite (by omega)
  refine ⟨?_, ?_, ?_, ?_⟩
  · simpa [RawBuffer.store, hlength] using h.cheap
  · exact h.reader_le.trans (Nat.le_add_right _ _)
  · simp only [RawBuffer.store, hlength]
    omega
  · rw [← h.content]
    exact segment_overwrite_end h.reader_le hwriter data

theorem writableBytes_store (h : s.writerIndex ≤ s.buffer.length)
    (hlen : data.length ≤ s.writableBytes) :
    (s.store data).writableBytes = s.writableBytes := by
  unfold writableBytes at hlen
  have hlength : (overwrite s.buffer s.writerIndex data).length =
      s.buffer.length := length_overwrite (by omega)
  simp only [writableBytes, store, hlength]

theorem Represents.hasWritten (h : s.Represents q)
    (hlen : data.length ≤ s.writableBytes) :
    ∃ s', (s.store data).hasWritten data.length = some s' ∧
      s'.Represents (q ++ data) := by
  refine ⟨_, ?_, h.store hlen⟩
  unfold RawBuffer.hasWritten
  rw [if_pos (by rwa [writableBytes_store h.writer_le hlen])]
  rfl

theorem Represents.append (h : s.Represents q) (data : Bytes) :
    ∃ s', s.append data = some s' ∧ s'.Represents (q ++ data) := by
  obtain ⟨s₁, hs₁, hrepresents, hwritable⟩ :=
    h.ensureWritableBytes data.length
  obtain ⟨s₂, hs₂, hwritten⟩ := hrepresents.hasWritten hwritable
  exact ⟨s₂, by simp [RawBuffer.append, hs₁, hs₂], hwritten⟩

theorem Represents.unwrite (h : s.Represents q) (hlen : len ≤ q.length) :
    ∃ s', s.unwrite len = some s' ∧ s'.Represents (q.rdrop len) := by
  have hreadable := h.readableBytes
  have hwriter := h.writer_le
  unfold RawBuffer.unwrite
  rw [if_pos (by omega)]
  unfold RawBuffer.readableBytes at hreadable
  refine ⟨_, rfl, h.cheap, ?_, ?_, ?_⟩
  · change s.readerIndex ≤ s.writerIndex - len
    have := h.reader_le
    omega
  · exact (Nat.sub_le _ _).trans hwriter
  · rw [← h.content]
    exact segment_rdrop hwriter len

theorem Represents.prepend (h : s.Represents q)
    (hlen : data.length ≤ s.prependableBytes) :
    ∃ s', s.prepend data = some s' ∧ s'.Represents (data ++ q) := by
  have hreader := h.reader_le
  have hwriter := h.writer_le
  have hlen' : data.length ≤ s.readerIndex := hlen
  have hstart : s.readerIndex - data.length + data.length = s.readerIndex :=
    Nat.sub_add_cancel hlen'
  have hlength : (overwrite s.buffer (s.readerIndex - data.length)
      data).length = s.buffer.length := length_overwrite (by omega)
  unfold RawBuffer.prepend
  rw [if_pos hlen]
  refine ⟨_, rfl, ?_, ?_, ?_, ?_⟩
  · simpa [hlength] using h.cheap
  · exact (Nat.sub_le _ _).trans hreader
  · simpa [hlength] using hwriter
  · have hfront : segment
        (overwrite s.buffer (s.readerIndex - data.length) data)
        (s.readerIndex - data.length) s.writerIndex =
          data ++ segment s.buffer
            (s.readerIndex - data.length + data.length) s.writerIndex :=
      segment_overwrite_start (by omega) hwriter
    rw [hstart] at hfront
    rw [← h.content]
    exact hfront

theorem Represents.shrink (h : s.Represents q) (reserve : ℕ) :
    ∃ s', s.shrink reserve = some s' ∧ s'.Represents q := by
  obtain ⟨other, hother, hempty, -⟩ :=
    (represents_new kInitialSize).ensureWritableBytes
      (s.readableBytes + reserve)
  obtain ⟨s', hs', hfull⟩ := hempty.append s.content
  rw [List.nil_append, h.content] at hfull
  exact ⟨s', by simp [RawBuffer.shrink, hother, hs'], hfull⟩

/-- A read goes behind the content, wherever it is split. -/
theorem Represents.readFd (h : s.Represents q) (input : Bytes) :
    ∃ s', s.readFd (some input) = some s' ∧ s'.Represents (q ++ input) := by
  by_cases hfits : input.length ≤ s.writableBytes
  · exact ⟨_, if_pos hfits, h.store hfits⟩
  · have hwriter := h.writer_le
    have htail : (input.take s.writableBytes).length = s.writableBytes := by
      simp only [List.length_take]
      omega
    have hend : s.writerIndex + (input.take s.writableBytes).length =
        s.buffer.length := by
      rw [htail, writableBytes]
      omega
    have hfull := h.store htail.le
    rw [hend] at hfull
    obtain ⟨s', hs', hall⟩ := hfull.append (input.drop s.writableBytes)
    rw [List.append_assoc, List.take_append_drop] at hall
    exact ⟨s', (if_neg hfits).trans hs', hall⟩

end RawBuffer

end MuduoHttp
