import MuduoHttp.Http.FastCgi
import MuduoHttp.Support.Reader

/-!
# Cutting the records of php-fpm into reads

The loop of `onCGIMessage` takes a record apart as soon as its header is
readable.  A reader that waits for the whole record is resumable, so that it
yields the same messages for every way of cutting the stream; the loop does
what this reader does as long as every read ends near a record boundary, with
less than a header of the next record.
-/

namespace MuduoHttp

open Support FastCgi

namespace FastCgi

/-! ## The reader that waits for whole records -/

/-- The number of bytes that `ParseFromPhp` consumes behind a header. -/
def bodyLength (h : FcgiHeader) : ℕ :=
  if h.type = FCGI_STDOUT ∨ h.type = FCGI_STDERR then
    h.contentLength + h.paddingLength.toNat
  else if h.type = FCGI_END_REQUEST then 8
  else 0

/-- The message of a record with the given header, when `body` follows. -/
def messageOf (h : FcgiHeader) (body : Bytes) : CgiMessage where
  requestid := h.requestId
  content := if h.type = FCGI_STDOUT then body.take h.contentLength else []
  overrun := false

/-- The buffer starts with a whole record. -/
def HasRecord (buf : Bytes) : Prop :=
  FCGI_HEADER_LEN ≤ buf.length ∧
    FCGI_HEADER_LEN + bodyLength (FcgiHeader.ofBytes buf) ≤ buf.length

instance (buf : Bytes) : Decidable (HasRecord buf) :=
  inferInstanceAs (Decidable (_ ∧ _))

def lookRecord (messages : List CgiMessage) (buf : Bytes) :
    Look (List CgiMessage) Empty Byte :=
  if HasRecord buf then
    let header := FcgiHeader.ofBytes buf
    .move (messages ++ [messageOf header (buf.drop FCGI_HEADER_LEN)])
      (buf.drop (FCGI_HEADER_LEN + bodyLength header))
  else .wait

theorem hasRecord_append {buf : Bytes} (h : HasRecord buf) (data : Bytes) :
    HasRecord (buf ++ data) := by
  rw [HasRecord, FcgiHeader.ofBytes_append h.1, List.length_append]
  exact ⟨h.1.trans (Nat.le_add_right _ _), h.2.trans (Nat.le_add_right _ _)⟩

/-- The message depends on the record only. -/
theorem messageOf_append {h : FcgiHeader} {body : Bytes}
    (hbody : bodyLength h ≤ body.length) (data : Bytes) :
    messageOf h (body ++ data) = messageOf h body := by
  unfold messageOf
  by_cases hstdout : h.type = FCGI_STDOUT
  · have hfits : h.contentLength ≤ body.length := by
      rw [bodyLength, if_pos (.inl hstdout)] at hbody
      omega
    simp only [if_pos hstdout, List.take_append_of_le_length hfits]
  · simp only [if_neg hstdout]

/-- A reader that moves over one whole record at a time. -/
def recordReader : Reader (List CgiMessage) Empty Byte where
  look := lookRecord
  move_shorter := by
    intro messages buf messages' rest hlook
    unfold lookRecord at hlook
    split at hlook
    next hrecord =>
      cases hlook
      have hheader := hrecord.1
      rw [List.length_drop]
      unfold FCGI_HEADER_LEN at hheader ⊢
      omega
    · cases hlook
  look_append := by
    intro messages buf data hlook
    unfold lookRecord at hlook ⊢
    split at hlook
    next hrecord =>
      have hbody : bodyLength (FcgiHeader.ofBytes buf) ≤
          (buf.drop FCGI_HEADER_LEN).length := by
        have hfits := hrecord.2
        rw [List.length_drop]
        omega
      rw [if_pos hrecord, if_pos (hasRecord_append hrecord data)]
      simp only [FcgiHeader.ofBytes_append hrecord.1, Look.append,
        List.drop_append_of_le_length hrecord.1,
        List.drop_append_of_le_length hrecord.2, messageOf_append hbody]
    · exact absurd rfl hlook

/-! ## The loop -/

variable {stale : ℕ → Byte}

/-- On a whole record `ParseFromPhp` does what the reader does. -/
theorem parseFromPhp_record {buf : Bytes} (h : HasRecord buf) :
    parseFromPhp stale buf =
      { content :=
          (messageOf (FcgiHeader.ofBytes buf)
            (buf.drop FCGI_HEADER_LEN)).content
        buffer :=
          buf.drop (FCGI_HEADER_LEN + bodyLength (FcgiHeader.ofBytes buf))
        overrun := false } := by
  obtain ⟨hheader, hfits⟩ := h
  have hpadding : ∀ (rest : Bytes) (n : Byte),
      (if n > 0 then rest.drop n.toNat else rest) = rest.drop n.toNat := by
    intro rest n
    split
    · rfl
    next hzero =>
      have : n.toNat = 0 := by
        rw [UInt8.not_lt, UInt8.le_iff_toNat_le] at hzero
        exact Nat.le_zero.mp hzero
      rw [this, List.drop_zero]
  simp only [parseFromPhp, messageOf, bodyLength, Buffer.retrieve_eq_drop,
    hpadding] at hfits ⊢
  simp only [List.drop_drop, Nat.add_assoc]
  by_cases hstdout : (FcgiHeader.ofBytes buf).type = FCGI_STDOUT
  · simp only [hstdout, true_or, if_true] at hfits ⊢
    have hcontent : (FcgiHeader.ofBytes buf).contentLength ≤
        (buf.drop FCGI_HEADER_LEN).length := by
      rw [List.length_drop]
      omega
    rw [copyFrom, Nat.sub_eq_zero_of_le hcontent, List.range_zero,
      List.map_nil, List.append_nil, decide_eq_false (not_lt.mpr hcontent)]
  · by_cases hstderr : (FcgiHeader.ofBytes buf).type = FCGI_STDERR
    · simp [hstderr, show ¬ FCGI_STDERR = FCGI_STDOUT by decide]
    · by_cases hend : (FcgiHeader.ofBytes buf).type = FCGI_END_REQUEST
      · simp [hend, show ¬ FCGI_END_REQUEST = FCGI_STDOUT by decide,
          show ¬ FCGI_END_REQUEST = FCGI_STDERR by decide]
      · simp [hstdout, hstderr, hend]

/-- The loop does what the reader does when the reader stops within a header
of the next record. -/
theorem cgiLoop_eq_drain (stale : ℕ → Byte) {messages messages' : List CgiMessage}
    {buf rest : Bytes}
    (hdrain : recordReader.drain messages buf = .idle messages' rest)
    (hnear : rest.length < FCGI_HEADER_LEN) {fuel : ℕ}
    (hfuel : buf.length ≤ fuel) :
    messages' = messages ++ (cgiLoop stale fuel buf).1 ∧
      (cgiLoop stale fuel buf).2 = rest := by
  induction messages, buf using Reader.drain_induction (R := recordReader)
      generalizing fuel with
  | wait messages buf hlook =>
      rw [Reader.drain_of_wait hlook] at hdrain
      cases hdrain
      cases fuel with
      | zero => simp [cgiLoop]
      | succ fuel => simp [cgiLoop, not_le.mpr hnear]
  | move messages buf next more hlook ih =>
      rw [Reader.drain_of_move hlook] at hdrain
      have hshort := recordReader.move_shorter hlook
      change lookRecord messages buf = _ at hlook
      unfold lookRecord at hlook
      split at hlook
      next hrecord =>
        cases hlook
        obtain ⟨fuel, rfl⟩ : ∃ k, fuel = k + 1 := ⟨fuel - 1, by omega⟩
        have hfuel' : (buf.drop (FCGI_HEADER_LEN +
            bodyLength (FcgiHeader.ofBytes buf))).length ≤ fuel := by
          omega
        obtain ⟨hmessages, hrest⟩ := ih hdrain hfuel'
        simp only [cgiLoop, if_pos hrecord.1, parseFromPhp_record hrecord]
        exact ⟨by rw [hmessages, List.append_assoc]; rfl, hrest⟩
      · cases hlook
  | halt messages buf r more hlook => exact r.elim

/-- The messages of the calls of `onCGIMessage` after successive reads. -/
def cgiReads (stale : ℕ → Byte) (buf : Bytes) :
    List Bytes → List CgiMessage × Bytes
  | [] => ([], buf)
  | chunk :: chunks =>
      let (messages, rest) := cgiMessages stale (Buffer.append buf chunk)
      let (messages', rest') := cgiReads stale rest chunks
      (messages ++ messages', rest')

theorem cgiReads_append (stale : ℕ → Byte) (buf : Bytes)
    (before after : List Bytes) :
    cgiReads stale buf (before ++ after) =
      ((cgiReads stale buf before).1 ++
          (cgiReads stale (cgiReads stale buf before).2 after).1,
        (cgiReads stale (cgiReads stale buf before).2 after).2) := by
  induction before generalizing buf with
  | nil => simp [cgiReads]
  | cons chunk before ih =>
      simp only [List.cons_append, cgiReads, ih, List.append_assoc]

/-- When every read leaves the reader within a header, the calls yield the
messages of the reader. -/
theorem cgiReads_eq_drain (stale : ℕ → Byte) (chunks : List Bytes)
    {start messages : List CgiMessage} {seen buf : Bytes}
    (hidle : recordReader.drain start seen = .idle messages buf)
    (hnear : ∀ before after, chunks = before ++ after → before ≠ [] →
      ∃ messages' rest,
        recordReader.drain start (seen ++ before.flatten) =
          .idle messages' rest ∧ rest.length < FCGI_HEADER_LEN) :
    recordReader.drain start (seen ++ chunks.flatten) =
      .idle (messages ++ (cgiReads stale buf chunks).1)
        (cgiReads stale buf chunks).2 := by
  induction chunks generalizing messages seen buf with
  | nil => simpa [cgiReads] using hidle
  | cons chunk chunks ih =>
      obtain ⟨messages', rest, hread, hshort⟩ :=
        hnear [chunk] chunks rfl (by simp)
      rw [List.flatten_singleton] at hread
      have hcall := Reader.drain_append_of_idle hidle chunk
      rw [hread] at hcall
      obtain ⟨rfl, rfl⟩ :=
        cgiLoop_eq_drain stale hcall.symm hshort le_rfl
      have hrest := ih hread (fun before after hsplit hne => by
        have h := hnear (chunk :: before) after (by rw [hsplit]; rfl) (by simp)
        rwa [List.flatten_cons, ← List.append_assoc] at h)
      rw [List.flatten_cons, ← List.append_assoc, hrest]
      simp only [cgiReads, cgiMessages, Buffer.append_eq, List.append_assoc]

end FastCgi

/-! ## Streams of well-formed records -/

/-- A `FCGI_STDOUT` or `FCGI_STDERR` record with content and padding of the
lengths in its header, or a `FCGI_END_REQUEST` record with a body of eight
bytes. -/
structure CgiRecord where
  header : FcgiHeader
  content : Bytes
  padding : Bytes
  content_length : content.length = header.contentLength
  padding_length : padding.length = header.paddingLength.toNat
  wellFormed : header.type = FCGI_STDOUT ∨ header.type = FCGI_STDERR ∨
    (header.type = FCGI_END_REQUEST ∧ content.length = 8 ∧ padding = [])

namespace CgiRecord

def bytes (r : CgiRecord) : Bytes := r.header.bytes ++ (r.content ++ r.padding)

/-- The request id and the content, which counts on standard output only. -/
def message (r : CgiRecord) : CgiMessage where
  requestid := r.header.requestId
  content := if r.header.type = FCGI_STDOUT then r.content else []
  overrun := false

theorem bodyLength_eq (r : CgiRecord) :
    bodyLength r.header = (r.content ++ r.padding).length := by
  rw [List.length_append]
  rcases r.wellFormed with h | h | ⟨h, hcontent, hpadding⟩
  · rw [bodyLength, if_pos (.inl h), r.content_length, r.padding_length]
  · rw [bodyLength, if_pos (.inr h), r.content_length, r.padding_length]
  · rw [bodyLength, h, if_neg (by decide), if_pos rfl, hcontent, hpadding]
    rfl

theorem bytes_append (r : CgiRecord) (rest : Bytes) :
    r.bytes ++ rest = r.header.bytes ++ (r.content ++ r.padding ++ rest) := by
  rw [bytes, List.append_assoc]

theorem ofBytes_bytes (r : CgiRecord) (rest : Bytes) :
    FcgiHeader.ofBytes (r.bytes ++ rest) = r.header := by
  rw [bytes_append, FcgiHeader.ofBytes_bytes]

theorem hasRecord_bytes (r : CgiRecord) (rest : Bytes) :
    HasRecord (r.bytes ++ rest) := by
  rw [HasRecord, r.ofBytes_bytes, r.bodyLength_eq, bytes_append]
  simp only [List.length_append, FcgiHeader.length_bytes]
  omega

/-- Behind the record comes the rest. -/
theorem drop_bytes (r : CgiRecord) (rest : Bytes) :
    (r.bytes ++ rest).drop (FCGI_HEADER_LEN + bodyLength r.header) = rest := by
  rw [bytes_append, r.bodyLength_eq, ← List.drop_drop,
    List.drop_left' r.header.length_bytes, List.drop_left]

theorem messageOf_bytes (r : CgiRecord) (rest : Bytes) :
    messageOf r.header ((r.bytes ++ rest).drop FCGI_HEADER_LEN) =
      r.message := by
  rw [bytes_append, List.drop_left' r.header.length_bytes, messageOf, message,
    List.append_assoc, ← r.content_length, List.take_left]

theorem look_bytes (r : CgiRecord) (messages : List CgiMessage)
    (rest : Bytes) :
    recordReader.look messages (r.bytes ++ rest) =
      .move (messages ++ [r.message]) rest := by
  change lookRecord messages (r.bytes ++ rest) = _
  rw [lookRecord, if_pos (r.hasRecord_bytes rest)]
  simp only [r.ofBytes_bytes, r.drop_bytes, r.messageOf_bytes]

/-- On whole records and the start of a header the reader stops there. -/
theorem drain_records (records : List CgiRecord) (messages : List CgiMessage)
    {rest : Bytes} (hnear : rest.length < FCGI_HEADER_LEN) :
    recordReader.drain messages (records.flatMap (·.bytes) ++ rest) =
      .idle (messages ++ records.map (·.message)) rest := by
  induction records generalizing messages with
  | nil =>
      have hwait : recordReader.look messages rest = .wait :=
        if_neg fun hrecord => absurd hrecord.1 (not_le.mpr hnear)
      simpa using Reader.drain_of_wait hwait
  | cons r records ih =>
      rw [List.flatMap_cons, List.append_assoc,
        Reader.drain_of_move (r.look_bytes messages _), ih]
      simp

/-- One call on whole records yields their messages. -/
theorem cgiMessages_flatMap (records : List CgiRecord) (stale : ℕ → Byte) :
    (cgiMessages stale (records.flatMap (·.bytes))).1 =
      records.map (·.message) := by
  have hdrain := drain_records records []
    (show ([] : Bytes).length < FCGI_HEADER_LEN by decide)
  rw [List.append_nil] at hdrain
  exact (cgiLoop_eq_drain stale hdrain (by decide) le_rfl).1.symm

/-! ### Incomplete records -/

/-- What has arrived of some records: whole records and a part of the next. -/
theorem exists_arrived (records : List CgiRecord) {seen : Bytes}
    (hseen : seen <+: records.flatMap (·.bytes)) :
    ∃ (arrived pending : List CgiRecord) (part : Bytes),
      records = arrived ++ pending ∧
        seen = arrived.flatMap (·.bytes) ++ part ∧
        (part = [] ∨ ∃ r ∈ pending, part <+: r.bytes ∧
          part.length < r.bytes.length) := by
  induction records generalizing seen with
  | nil =>
      have hnil : seen = [] := List.prefix_nil.mp hseen
      exact ⟨[], [], [], rfl, hnil, .inl rfl⟩
  | cons r records ih =>
      rw [List.flatMap_cons] at hseen
      have hfirst : r.bytes <+: r.bytes ++ records.flatMap (·.bytes) :=
        List.prefix_append _ _
      by_cases hwhole : r.bytes.length ≤ seen.length
      · obtain ⟨rest, rfl⟩ :=
          List.prefix_of_prefix_length_le hfirst hseen hwhole
        obtain ⟨arrived, pending, part, rfl, rfl, hpart⟩ :=
          ih ((List.prefix_append_right_inj _).mp hseen)
        refine ⟨r :: arrived, pending, part, rfl, ?_, hpart⟩
        rw [List.flatMap_cons, List.append_assoc]
      · have hpart : seen <+: r.bytes :=
          List.prefix_of_prefix_length_le hseen hfirst (by omega)
        exact ⟨[], r :: records, seen, rfl, rfl,
          .inr ⟨r, List.mem_cons_self .., hpart, by omega⟩⟩

/-- One turn of the loop takes a whole record. -/
theorem cgiLoop_bytes (stale : ℕ → Byte) (r : CgiRecord) (fuel : ℕ)
    (rest : Bytes) :
    cgiLoop stale (fuel + 1) (r.bytes ++ rest) =
      (r.message :: (cgiLoop stale fuel rest).1,
        (cgiLoop stale fuel rest).2) := by
  have hlook := r.look_bytes [] rest
  change lookRecord [] (r.bytes ++ rest) = _ at hlook
  unfold lookRecord at hlook
  split at hlook
  next hrecord =>
    injection hlook with hmessage hrest
    simp only [List.nil_append, List.cons.injEq, and_true] at hmessage
    simp only [cgiLoop, if_pos hrecord.1, parseFromPhp_record hrecord, hrest,
      ← hmessage]
    rfl
  · cases hlook

/-- Behind whole records, a header in front of an incomplete content makes
`ParseFromPhp` copy bytes that are not readable. -/
theorem exists_overrun (stale : ℕ → Byte) {r : CgiRecord}
    (hstdout : r.header.type = FCGI_STDOUT) {content : Bytes}
    (hshort : content.length < r.content.length) (records : List CgiRecord)
    {fuel : ℕ}
    (hfuel : (records.flatMap (·.bytes) ++
      (r.header.bytes ++ content)).length ≤ fuel) :
    ∃ m ∈ (cgiLoop stale fuel (records.flatMap (·.bytes) ++
      (r.header.bytes ++ content))).1, m.overrun = true := by
  induction records generalizing fuel with
  | nil =>
      have hheader : FCGI_HEADER_LEN ≤ (r.header.bytes ++ content).length := by
        simp
      rw [List.flatMap_nil, List.nil_append] at hfuel ⊢
      obtain ⟨fuel, rfl⟩ : ∃ k, fuel = k + 1 :=
        ⟨fuel - 1, by unfold FCGI_HEADER_LEN at hheader; omega⟩
      rw [cgiLoop, if_pos hheader]
      refine ⟨_, List.mem_cons_self .., ?_⟩
      rw [r.content_length] at hshort
      simp [parseFromPhp, hstdout, Buffer.retrieve_eq_drop,
        List.drop_left' r.header.length_bytes, hshort]
  | cons first records ih =>
      rw [List.flatMap_cons, List.append_assoc] at hfuel ⊢
      have hlength : FCGI_HEADER_LEN ≤ first.bytes.length := by
        simp [bytes]
      rw [List.length_append] at hfuel
      unfold FCGI_HEADER_LEN at hlength
      obtain ⟨fuel, rfl⟩ : ∃ k, fuel = k + 1 := ⟨fuel - 1, by omega⟩
      obtain ⟨m, hm, hoverrun⟩ := ih (show _ ≤ fuel by omega)
      rw [cgiLoop_bytes]
      exact ⟨m, List.mem_cons_of_mem _ hm, hoverrun⟩

/-- The same for a part of a record without padding. -/
theorem exists_overrun_of_part (stale : ℕ → Byte) {r : CgiRecord}
    (hstdout : r.header.type = FCGI_STDOUT) (hpadding : r.padding = [])
    {part : Bytes} (hpart : part <+: r.bytes)
    (hheader : FCGI_HEADER_LEN ≤ part.length)
    (hlength : part.length < r.bytes.length) (records : List CgiRecord) :
    ∃ m ∈ (cgiMessages stale (records.flatMap (·.bytes) ++ part)).1,
      m.overrun = true := by
  obtain ⟨content, rfl⟩ := List.prefix_of_prefix_length_le
    (List.prefix_append r.header.bytes _) hpart hheader
  have hshort : content.length < r.content.length := by
    simpa [bytes, hpadding] using hlength
  exact exists_overrun stale hstdout hshort records le_rfl

end CgiRecord

/-- Records of php-fpm, and a way of cutting them into reads. -/
structure CgiStream where
  records : List CgiRecord
  chunks : List Bytes
  cut : chunks.flatten = records.flatMap (·.bytes)

namespace CgiStream

/-- The calls of `onCGIMessage` after the reads yield the request ids and
contents that one call on the whole stream yields, and none of them copies
bytes that are not readable. -/
def SameMessages (s : CgiStream) : Prop :=
  ∀ stale : ℕ → Byte,
    ((cgiReads stale [] s.chunks).1.map fun m => (m.requestid, m.content)) =
        (cgiMessages stale s.chunks.flatten).1.map
          (fun m => (m.requestid, m.content)) ∧
      (∀ m ∈ (cgiReads stale [] s.chunks).1, m.overrun = false) ∧
      ∀ m ∈ (cgiMessages stale s.chunks.flatten).1, m.overrun = false

/-- Every read ends at a record boundary or within the next header. -/
def CutsNearRecords (s : CgiStream) : Prop :=
  ∀ before after, s.chunks = before ++ after →
    ∃ (arrived pending : List CgiRecord) (rest : Bytes),
      s.records = arrived ++ pending ∧ rest.length < FCGI_HEADER_LEN ∧
        before.flatten = arrived.flatMap (·.bytes) ++ rest

/-- Calls after reads that end near the record boundaries yield the messages
of the records. -/
theorem cgiReads_records (s : CgiStream) (hnear : s.CutsNearRecords)
    (stale : ℕ → Byte) :
    (cgiReads stale [] s.chunks).1 = s.records.map (·.message) := by
  have hempty : recordReader.drain [] [] = .idle [] [] :=
    CgiRecord.drain_records [] [] (by decide)
  have hdrain := cgiReads_eq_drain stale s.chunks hempty
    fun before after hsplit _ => by
      obtain ⟨arrived, pending, rest, -, hshort, hbytes⟩ :=
        hnear before after hsplit
      refine ⟨[] ++ arrived.map (·.message), rest, ?_, hshort⟩
      rw [List.nil_append, hbytes]
      exact CgiRecord.drain_records arrived [] hshort
  have hwhole := CgiRecord.drain_records s.records []
    (show ([] : Bytes).length < FCGI_HEADER_LEN by decide)
  rw [List.append_nil, ← s.cut] at hwhole
  rw [List.nil_append, hwhole] at hdrain
  injection hdrain with hmessages
  exact hmessages.symm

/-- Reads that end near the record boundaries do not change the messages. -/
theorem sameMessages_of_cutsNearRecords (s : CgiStream)
    (hnear : s.CutsNearRecords) : s.SameMessages := by
  intro stale
  have hsound : ∀ m ∈ s.records.map (·.message), m.overrun = false := by
    intro m hm
    obtain ⟨r, -, rfl⟩ := List.mem_map.mp hm
    rfl
  rw [s.cgiReads_records hnear, s.cut, CgiRecord.cgiMessages_flatMap]
  exact ⟨rfl, hsound, hsound⟩

/-- Only standard output, without padding. -/
def PlainOutput (s : CgiStream) : Prop :=
  ∀ r ∈ s.records, r.header.type = FCGI_STDOUT ∧ r.padding = []

/-- After some of the reads the calls have taken whole records, and less than
a header is left. -/
def Synced (s : CgiStream) (stale : ℕ → Byte) (before : List Bytes) : Prop :=
  ∃ (arrived pending : List CgiRecord) (rest : Bytes),
    s.records = arrived ++ pending ∧ rest.length < FCGI_HEADER_LEN ∧
      before.flatten = arrived.flatMap (·.bytes) ++ rest ∧
      (cgiReads stale [] before).2 = rest

/-- On plain output, a read that ends elsewhere ends inside a content, and the
call copies bytes that have not arrived. -/
theorem Synced.read {s : CgiStream} {stale : ℕ → Byte}
    {before after : List Bytes} {chunk : Bytes} (h : s.Synced stale before)
    (hplain : s.PlainOutput)
    (hsound : ∀ m ∈ (cgiReads stale [] s.chunks).1, m.overrun = false)
    (hsplit : s.chunks = before ++ chunk :: after) :
    s.Synced stale (before ++ [chunk]) := by
  obtain ⟨arrived, pending, rest, hrecords, -, hbytes, hrest⟩ := h
  have hseen : rest ++ chunk <+: pending.flatMap (·.bytes) := by
    have hcut := s.cut
    rw [hsplit, hrecords, List.flatMap_append, List.flatten_append, hbytes,
      List.append_assoc, List.append_cancel_left_eq] at hcut
    rw [← hcut]
    simp
  obtain ⟨arrived', pending', part, rfl, hpart, hnext⟩ :=
    CgiRecord.exists_arrived pending hseen
  have hnear : part.length < FCGI_HEADER_LEN := by
    by_contra hlong
    rcases hnext with rfl | ⟨r, hr, hfits, hlength⟩
    · exact hlong (by decide)
    · obtain ⟨hstdout, hpadding⟩ := hplain r (by simp [hrecords, hr])
      obtain ⟨m, hm, hoverrun⟩ := CgiRecord.exists_overrun_of_part stale
        hstdout hpadding hfits (not_lt.mp hlong) hlength arrived'
      have hmem : m ∈ (cgiReads stale [] s.chunks).1 := by
        rw [hsplit, cgiReads_append, hrest]
        apply List.mem_append_right
        rw [← hpart] at hm
        exact List.mem_append_left _ hm
      rw [hsound m hmem] at hoverrun
      cases hoverrun
  refine ⟨arrived ++ arrived', pending', part, ?_, hnear, ?_, ?_⟩
  · rw [hrecords, List.append_assoc]
  · rw [List.flatten_append, hbytes, List.flatten_singleton,
      List.append_assoc, hpart, List.flatMap_append, List.append_assoc]
  · have hdrain := CgiRecord.drain_records arrived' [] hnear
    have hread : (cgiReads stale [] (before ++ [chunk])).2 =
        (cgiMessages stale (rest ++ chunk)).2 := by
      rw [cgiReads_append, hrest]
      rfl
    rw [hread, hpart, cgiMessages]
    exact (cgiLoop_eq_drain stale hdrain hnear le_rfl).2

/-- On plain output, unchanged messages mean that every read ended near a
record boundary. -/
theorem cutsNearRecords_of_sameMessages (s : CgiStream)
    (hplain : s.PlainOutput) (hsame : s.SameMessages) :
    s.CutsNearRecords := by
  have hsound := (hsame fun _ => 0).2.1
  have hsynced : ∀ before after, s.chunks = before ++ after →
      s.Synced (fun _ => 0) before := by
    intro before
    induction before using List.reverseRecOn with
    | nil =>
        intro after _
        exact ⟨[], s.records, [], rfl, by decide, rfl, rfl⟩
    | append_singleton before chunk ih =>
        intro after hsplit
        rw [List.append_assoc] at hsplit
        exact (ih _ hsplit).read hplain hsound hsplit
  intro before after hsplit
  obtain ⟨arrived, pending, rest, hrecords, hshort, hbytes, -⟩ :=
    hsynced before after hsplit
  exact ⟨arrived, pending, rest, hrecords, hshort, hbytes⟩

/-- Reads that end near the record boundaries do not change the messages, and
on plain output no other reads leave them unchanged. -/
theorem sameMessages_cuts (s : CgiStream) :
    (s.CutsNearRecords → s.SameMessages) ∧
      (s.PlainOutput → s.SameMessages → s.CutsNearRecords) :=
  ⟨s.sameMessages_of_cutsNearRecords, s.cutsNearRecords_of_sameMessages⟩

end CgiStream

/-- A record of two bytes on standard output. -/
def twoByteRecord : CgiRecord where
  header := makeHeader FCGI_STDOUT 1 2 0
  content := ascii "hi"
  padding := []
  content_length := by decide
  padding_length := by decide
  wellFormed := .inl rfl

/-- The end of the request of id 1. -/
def endOfFirst : CgiRecord where
  header := makeHeader FCGI_END_REQUEST 1 8 0
  content := List.replicate 8 0
  padding := []
  content_length := by decide
  padding_length := by decide
  wellFormed := by decide

/-- The record cut inside its header. -/
def cutInHeader : CgiStream where
  records := [twoByteRecord]
  chunks := [twoByteRecord.bytes.take 3, twoByteRecord.bytes.drop 3]
  cut := by decide

theorem sameMessages_cutInHeader :
    cutInHeader.CutsNearRecords ∧ cutInHeader.SameMessages ∧
      cutInHeader.PlainOutput := by
  have hnear : cutInHeader.CutsNearRecords := by
    intro before after hsplit
    rcases before with _ | ⟨first, _ | ⟨second, before⟩⟩
    · exact ⟨[], _, [], rfl, by decide, rfl⟩
    · injection hsplit with hfirst
      subst hfirst
      exact ⟨[], _, _, rfl, by decide, rfl⟩
    · injection hsplit with hfirst hrest
      injection hrest with hsecond hnil
      obtain ⟨rfl, rfl⟩ := List.append_eq_nil_iff.mp hnil.symm
      subst hfirst hsecond
      exact ⟨[twoByteRecord], [], [], rfl, by decide, by decide⟩
  have hplain : cutInHeader.PlainOutput := by
    intro r hr
    obtain rfl := List.mem_singleton.mp hr
    exact ⟨rfl, rfl⟩
  exact ⟨hnear, (CgiStream.sameMessages_cuts cutInHeader).1 hnear, hplain⟩

/-- The record cut inside its content. -/
def cutInContent : CgiStream where
  records := [twoByteRecord]
  chunks := [twoByteRecord.bytes.take 9, twoByteRecord.bytes.drop 9]
  cut := by decide

/-- The first call copies a byte that has not arrived. -/
theorem not_sameMessages_cutInContent : ¬ cutInContent.SameMessages := by
  intro hsame
  have hoverrun := (hsame fun _ => 0).2.1
  revert hoverrun
  decide

end MuduoHttp
