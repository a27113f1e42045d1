import MuduoHttp.Http.CgiRecords
import MuduoHttp.Net.RawBuffer

/-!
# Whole records of php-fpm

`getRequestId`, `ParseFromPhp` and the loop of `onCGIMessage` on the vector
and the indices of a `Buffer`.  The loop takes whole records of standard
output and errors and whole ends of requests apart, and leaves the buffer
empty.

`ParseFromPhp` looks at the lengths in the header for the first two types
only, so that it stays synchronised on few records of other shapes.
-/

namespace MuduoHttp

open Support FastCgi

/-! ## The codec on the representation -/

namespace RawBuffer

/-- `memcpy` of a header from `peek()`. -/
def responderHeader (s : RawBuffer) : FcgiHeader :=
  FcgiHeader.ofBytes (s.copyFrom FCGI_HEADER_LEN)

def getRequestId (s : RawBuffer) : ℕ := s.responderHeader.requestId

/-- The padding is retrieved if there is some. -/
def retrievePadding (s : RawBuffer) (paddingLength : Byte) :
    Option RawBuffer :=
  if paddingLength > 0 then s.retrieve paddingLength.toNat else some s

/-- `FastCgi::ParseFromPhp`: the content that it returns, and the buffer. -/
def parseFromPhp (s : RawBuffer) : Option (Bytes × RawBuffer) := do
  let header := s.responderHeader
  let s ← s.retrieve FCGI_HEADER_LEN
  let contentLen := header.contentLength
  if header.type = FCGI_STDOUT then
    let content := s.copyFrom contentLen
    let s ← s.retrieve contentLen
    let s ← s.retrievePadding header.paddingLength
    some (content, s)
  else if header.type = FCGI_STDERR then
    let s ← s.retrieve contentLen
    let s ← s.retrievePadding header.paddingLength
    some ([], s)
  else if header.type = FCGI_END_REQUEST then
    let s ← s.retrieve 8
    some ([], s)
  else some ([], s)

/-- The loop of `onCGIMessage`: the request ids and contents of its turns, and
the buffer that it leaves.  It has no result when an assert fails, or when the
fuel ends before the loop does. -/
def cgiLoop : ℕ → RawBuffer → Option (List (ℕ × Bytes) × RawBuffer)
  | 0, _ => none
  | fuel + 1, s =>
      if FCGI_HEADER_LEN ≤ s.readableBytes then do
        let requestid := s.getRequestId
        let (content, s) ← s.parseFromPhp
        let (messages, s) ← cgiLoop fuel s
        some ((requestid, content) :: messages, s)
      else some ([], s)

variable {s : RawBuffer} {q : Bytes}

theorem Represents.responderHeader (h : s.Represents q)
    (hheader : FCGI_HEADER_LEN ≤ q.length) :
    s.responderHeader = FcgiHeader.ofBytes q := by
  have htaken : q.take FCGI_HEADER_LEN ++ q.drop FCGI_HEADER_LEN = q :=
    List.take_append_drop _ _
  have hlength : FCGI_HEADER_LEN ≤ (q.take FCGI_HEADER_LEN).length := by
    rw [List.length_take, Nat.min_eq_left hheader]
  rw [RawBuffer.responderHeader, h.copyFrom hheader]
  conv_rhs => rw [← htaken, FcgiHeader.ofBytes_append hlength]

theorem Represents.retrievePadding (h : s.Represents q) {paddingLength : Byte}
    (hlen : paddingLength.toNat ≤ q.length) :
    ∃ s', s.retrievePadding paddingLength = some s' ∧
      s'.Represents (q.drop paddingLength.toNat) := by
  rw [RawBuffer.retrievePadding]
  by_cases hpadding : paddingLength > 0
  · rw [if_pos hpadding]
    exact h.retrieve hlen
  · have hzero : paddingLength.toNat = 0 := by
      rw [gt_iff_lt, UInt8.not_lt, UInt8.le_iff_toNat_le] at hpadding
      exact Nat.le_zero.mp hpadding
    rw [if_neg hpadding, hzero, List.drop_zero]
    exact ⟨s, rfl, h⟩

/-- On a whole record no assert fails, and the content and the rest are those
of the record. -/
theorem Represents.parseFromPhp (h : s.Represents q) (hrecord : HasRecord q) :
    ∃ s', s.parseFromPhp =
        some ((messageOf (FcgiHeader.ofBytes q)
          (q.drop FCGI_HEADER_LEN)).content, s') ∧
      s'.Represents
        (q.drop (FCGI_HEADER_LEN + bodyLength (FcgiHeader.ofBytes q))) := by
  obtain ⟨hheader, hfits⟩ := hrecord
  obtain ⟨s₁, hs₁, hbody⟩ := h.retrieve hheader
  rw [← List.drop_drop]
  have hlength : bodyLength (FcgiHeader.ofBytes q) ≤
      (q.drop FCGI_HEADER_LEN).length := by
    rw [List.length_drop]
    omega
  rw [RawBuffer.parseFromPhp, h.responderHeader hheader, hs₁]
  generalize FcgiHeader.ofBytes q = header at hlength ⊢
  by_cases hout : header.type = FCGI_STDOUT ∨ header.type = FCGI_STDERR
  · rw [bodyLength, if_pos hout] at hlength
    obtain ⟨s₂, hs₂, hpadded⟩ := hbody.retrieve
      (show header.contentLength ≤ _ by omega)
    obtain ⟨s₃, hs₃, hrest⟩ := hpadded.retrievePadding
      (show header.paddingLength.toNat ≤ _ by rw [List.length_drop]; omega)
    rw [bodyLength, if_pos hout, ← List.drop_drop]
    refine ⟨s₃, ?_, hrest⟩
    have hcontent := hbody.copyFrom (show header.contentLength ≤ _ by omega)
    by_cases hstdout : header.type = FCGI_STDOUT
    · simp [messageOf, if_pos hstdout, hs₂, hs₃, hcontent]
    · have hstderr := hout.resolve_left hstdout
      simp [messageOf, if_neg hstdout, if_pos hstderr, hs₂, hs₃]
  · rw [bodyLength, if_neg hout] at hlength
    rw [bodyLength, if_neg hout]
    rw [not_or] at hout
    by_cases hend : header.type = FCGI_END_REQUEST
    · rw [if_pos hend] at hlength
      obtain ⟨s₂, hs₂, hrest⟩ := hbody.retrieve hlength
      rw [if_pos hend]
      refine ⟨s₂, ?_, hrest⟩
      simp [messageOf, if_neg hout.1, if_neg hout.2, if_pos hend, hs₂]
    · rw [if_neg hend, List.drop_zero]
      refine ⟨s₁, ?_, hbody⟩
      simp [messageOf, if_neg hout.1, if_neg hout.2, if_neg hend]

/-- One turn of the loop takes a whole record. -/
theorem Represents.parseRecord {r : CgiRecord} {rest : Bytes}
    (h : s.Represents (r.bytes ++ rest)) :
    FCGI_HEADER_LEN ≤ s.readableBytes ∧
      s.getRequestId = r.header.requestId ∧
      ∃ s', s.parseFromPhp = some (r.message.content, s') ∧
        s'.Represents rest := by
  have hrecord := r.hasRecord_bytes rest
  obtain ⟨s', hs', hrest⟩ := h.parseFromPhp hrecord
  rw [r.ofBytes_bytes, r.messageOf_bytes] at hs'
  rw [r.ofBytes_bytes, r.drop_bytes] at hrest
  refine ⟨?_, ?_, s', hs', hrest⟩
  · rw [h.readableBytes]
    exact hrecord.1
  · rw [RawBuffer.getRequestId, h.responderHeader hrecord.1, r.ofBytes_bytes]

end RawBuffer

/-- For every list of whole records in a buffer the loop of `onCGIMessage`
ends, each turn yields the request id of its record, and the content if that
is standard output, and the buffer is empty in the end. -/
theorem cgiLoop_records (records : List CgiRecord) {s : RawBuffer}
    (h : s.Represents (records.flatMap (·.bytes))) :
    ∃ s', s'.Represents [] ∧ ∀ fuel, records.length < fuel →
      s.cgiLoop fuel =
        some
          (records.map fun r =>
            (r.header.requestId,
              if r.header.type = FCGI_STDOUT then r.content else []), s') := by
  induction records generalizing s with
  | nil =>
      refine ⟨s, h, ?_⟩
      intro fuel hfuel
      obtain ⟨fuel, rfl⟩ := Nat.exists_eq_add_of_lt hfuel
      have hempty : ¬ FCGI_HEADER_LEN ≤ s.readableBytes := by
        rw [h.readableBytes]
        decide
      simp [RawBuffer.cgiLoop, hempty]
  | cons r records ih =>
      rw [List.flatMap_cons] at h
      obtain ⟨hheader, hid, s₁, hs₁, hrest⟩ := h.parseRecord
      obtain ⟨s', hempty, hloop⟩ := ih hrest
      refine ⟨s', hempty, ?_⟩
      intro fuel hfuel
      obtain ⟨fuel, rfl⟩ : ∃ k, fuel = k + 1 := ⟨fuel - 1, by omega⟩
      rw [List.length_cons, Nat.add_lt_add_iff_right] at hfuel
      simp [RawBuffer.cgiLoop, hheader, hid, hs₁, hloop fuel hfuel,
        CgiRecord.message]

/-- A buffer with an answer and the end of its request. -/
def answeredBuffer : RawBuffer where
  buffer := List.replicate 8 0 ++ (twoByteRecord.bytes ++ endOfFirst.bytes)
  readerIndex := 8
  writerIndex := 34

theorem cgiLoop_records_answered :
    answeredBuffer.Represents
        ([twoByteRecord, endOfFirst].flatMap (·.bytes)) ∧
      ∃ s', s'.Represents [] ∧ ∀ fuel, 2 < fuel →
        answeredBuffer.cgiLoop fuel =
          some ([(1, ascii "hi"), (1, [])], s') := by
  have h : answeredBuffer.Represents
      ([twoByteRecord, endOfFirst].flatMap (·.bytes)) :=
    ⟨by decide, by decide, by decide, by decide⟩
  exact ⟨h, cgiLoop_records _ h⟩

/-! ## Records of other shapes -/

/-- A whole record of any other type than the two of a script's output. -/
structure OtherRecord where
  header : FcgiHeader
  content : Bytes
  padding : Bytes
  content_length : content.length = header.contentLength
  padding_length : padding.length = header.paddingLength.toNat
  notStdout : header.type ≠ FCGI_STDOUT
  notStderr : header.type ≠ FCGI_STDERR

namespace OtherRecord

def bytes (r : OtherRecord) : Bytes :=
  r.header.bytes ++ (r.content ++ r.padding)

/-- `ParseFromPhp` on the record, with `t` behind it, leaves `t`. -/
def LeavesRest (r : OtherRecord) (t : Bytes) : Prop :=
  ∀ stale : ℕ → Byte, (parseFromPhp stale (r.bytes ++ t)).buffer = t

/-- The end of a request has eight bytes of content and padding, or fewer with
nothing behind them; a record of another type has neither content nor
padding. -/
def FixedLength (r : OtherRecord) (t : Bytes) : Prop :=
  if r.header.type = FCGI_END_REQUEST then
    r.header.contentLength + r.header.paddingLength.toNat = 8 ∨
      (r.header.contentLength + r.header.paddingLength.toNat < 8 ∧ t = [])
  else r.header.contentLength + r.header.paddingLength.toNat = 0

instance (r : OtherRecord) (t : Bytes) : Decidable (r.FixedLength t) :=
  inferInstanceAs (Decidable (ite _ _ _))

/-- What `ParseFromPhp` leaves of the record and the bytes behind it. -/
theorem buffer_parseFromPhp (r : OtherRecord) (stale : ℕ → Byte)
    (t : Bytes) :
    (parseFromPhp stale (r.bytes ++ t)).buffer =
      (r.content ++ r.padding ++ t).drop
        (if r.header.type = FCGI_END_REQUEST then 8 else 0) := by
  have hbytes : r.bytes ++ t =
      r.header.bytes ++ (r.content ++ r.padding ++ t) := by
    rw [bytes, List.append_assoc]
  have hheader : FcgiHeader.ofBytes (r.bytes ++ t) = r.header := by
    rw [hbytes, FcgiHeader.ofBytes_bytes]
  have hbody : Buffer.retrieve (r.bytes ++ t) FCGI_HEADER_LEN =
      r.content ++ r.padding ++ t := by
    rw [Buffer.retrieve_eq_drop, hbytes,
      List.drop_left' r.header.length_bytes]
  simp only [parseFromPhp, hheader, hbody, if_neg r.notStdout,
    if_neg r.notStderr]
  by_cases hend : r.header.type = FCGI_END_REQUEST
  · rw [if_pos hend, if_pos hend, Buffer.retrieve_eq_drop]
  · rw [if_neg hend, if_neg hend, List.drop_zero]

/-- The reader stays synchronised exactly on the records whose lengths are the
number of bytes that it drops anyway. -/
theorem leavesRest_iff (r : OtherRecord) (t : Bytes) :
    r.LeavesRest t ↔ r.FixedLength t := by
  have hbody : (r.content ++ r.padding).length =
      r.header.contentLength + r.header.paddingLength.toNat := by
    rw [List.length_append, r.content_length, r.padding_length]
  have hleft : r.LeavesRest t ↔
      (r.content ++ r.padding ++ t).drop
        (if r.header.type = FCGI_END_REQUEST then 8 else 0) = t := by
    simp only [LeavesRest, r.buffer_parseFromPhp, forall_const]
  rw [hleft, drop_append_eq_iff, hbody, FixedLength]
  split
  · exact Iff.rfl
  · simp

end OtherRecord

def FCGI_UNKNOWN_TYPE : Byte := 11

/-- The answer to a record of a type that php-fpm does not know, with its body
of eight bytes. -/
def unknownType : OtherRecord where
  header := makeHeader FCGI_UNKNOWN_TYPE 0 8 0
  content := [9, 0, 0, 0, 0, 0, 0, 0]
  padding := []
  content_length := by decide
  padding_length := by decide
  notStdout := by decide
  notStderr := by decide

/-- Its body is left behind, to be read as a header. -/
theorem not_leavesRest_unknownType :
    ¬ ∀ (r : OtherRecord) (t : Bytes), r.LeavesRest t := by
  intro h
  have hrest := h unknownType [] fun _ => 0
  revert hrest
  decide

end MuduoHttp
