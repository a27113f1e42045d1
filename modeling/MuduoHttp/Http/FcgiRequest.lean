import MuduoHttp.Http.ParamsBuffer
import MuduoHttp.Support.Decoder

/-!
# Decoding the records of a request

A reader of the protocol takes records off the bytes by their headers: a
header, as much content as it says, and the padding.  The content of a record
of parameters is a list of names and values, each with its length in front.
The reader gets back what the three functions were called with: a record that
begins the request, one with the parameters, and the empty one that ends them.
-/

namespace MuduoHttp

open Support Decoder

namespace FastCgi

/-! ## The grammar -/

structure FcgiRecord where
  header : FcgiHeader
  content : Bytes

def record : Decoder Byte FcgiRecord := do
  let header ← next FCGI_HEADER_LEN
  let content ← next (FcgiHeader.ofBytes header).contentLength
  let _ ← next (FcgiHeader.ofBytes header).paddingLength.toNat
  return ⟨FcgiHeader.ofBytes header, content⟩

/-- A length in four bytes when the top bit of the first one is set. -/
def lengthField : Decoder Byte ℕ := do
  let b3 ← symbol
  if b3 < 128 then
    return b3.toNat
  else
    let b2 ← symbol
    let b1 ← symbol
    let b0 ← symbol
    return (b3.toNat - 128) * 2 ^ 24 + b2.toNat * 2 ^ 16 + b1.toNat * 2 ^ 8 +
      b0.toNat

def nameValue : Decoder Byte (Bytes × Bytes) := do
  let nameLen ← lengthField
  let valueLen ← lengthField
  let name ← next nameLen
  let value ← next valueLen
  return (name, value)

/-- What a record says, as far as requests go. -/
inductive FcgiMessage
  | beginRequest (role : ℕ) (keepConnection : Bool)
  | params (pairs : List (Bytes × Bytes))
  | endParams

def FcgiRecord.message (r : FcgiRecord) : Option FcgiMessage :=
  if r.header.version ≠ FCGI_VERSION_1 then none
  else if r.header.type = FCGI_BEGIN_REQUEST then
    match r.content with
    | [roleB1, roleB0, flags, _, _, _, _, _] =>
        some
          (.beginRequest (roleB1.toNat * 2 ^ 8 + roleB0.toNat)
            (decide (flags &&& FCGI_KEEP_CONN ≠ 0)))
    | _ => none
  else if r.header.type = FCGI_PARAMS then
    if r.content = [] then some .endParams
    else (all nameValue r.content).map .params
  else none

/-! ## Names and values -/

/-- The top bit tells a length in four bytes from one in a single byte. -/
theorem toNat_topByte {n : ℕ} (h : n < 2 ^ 31) :
    (n / 2 ^ 24 ||| 0x80).toUInt8.toNat = n / 2 ^ 24 + 128 := by
  have hsmall : n / 2 ^ 24 < 2 ^ 7 := by omega
  have hor := Nat.two_pow_add_eq_or_of_lt hsmall 1
  rw [Nat.mul_one] at hor
  change (UInt8.ofNat _).toNat = _
  rw [UInt8.toNat_ofNat', Nat.or_comm, ← hor]
  omega

theorem reads_lengthField {n : ℕ} (h : n < 2 ^ 31) :
    Reads lengthField (lengthBytes n) n := by
  have hbyte : ∀ k : ℕ, k.toUInt8.toNat = k % 2 ^ 8 :=
    fun k => UInt8.toNat_ofNat'
  unfold lengthBytes lengthField
  split
  next hsmall =>
    have hlt : n.toUInt8 < 128 := by
      rw [UInt8.lt_iff_toNat_lt, hbyte]
      exact lt_of_le_of_lt (Nat.mod_le _ _) hsmall
    have hvalue : n.toUInt8.toNat = n := by
      rw [hbyte]
      omega
    apply (reads_symbol n.toUInt8).bind_nil
    rw [if_pos hlt, hvalue]
    exact reads_pure n
  next hlarge =>
    have htop := toNat_topByte h
    have hge : ¬ (n / 2 ^ 24 ||| 0x80).toUInt8 < 128 := by
      rw [UInt8.lt_iff_toNat_lt, htop]
      exact Nat.not_lt.mpr (Nat.le_add_left _ _)
    have hvalue : (n / 2 ^ 24 + 128 - 128) * 2 ^ 24 +
        n / 2 ^ 16 % 2 ^ 8 * 2 ^ 16 + n / 2 ^ 8 % 2 ^ 8 * 2 ^ 8 +
          n % 2 ^ 8 = n := by omega
    apply (reads_symbol _).bind
    rw [if_neg hge]
    apply (reads_symbol _).bind
    apply (reads_symbol _).bind
    apply (reads_symbol _).bind_nil
    rw [htop, hbyte, hbyte, hbyte, hvalue]
    exact reads_pure n

theorem reads_nameValue {pair : Bytes × Bytes}
    (hname : pair.1.length < 2 ^ 31) (hvalue : pair.2.length < 2 ^ 31) :
    Reads nameValue (makeNameValueBody pair.1 pair.2) pair := by
  unfold nameValue makeNameValueBody
  rw [List.append_assoc, List.append_assoc]
  apply (reads_lengthField hname).bind
  apply (reads_lengthField hvalue).bind
  apply (reads_next rfl).bind
  apply (reads_next rfl).bind_nil
  exact reads_pure _

theorem makeNameValueBody_ne_nil (name value : Bytes) :
    makeNameValueBody name value ≠ [] := by
  have hlength : lengthBytes name.length ≠ [] := by
    unfold lengthBytes
    split <;> exact List.cons_ne_nil _ _
  simp [makeNameValueBody, hlength]

/-! ## Requests -/

/-- A request whose parameters fit the array. -/
structure FcgiRequest where
  requestId : ℕ
  requestId_lt : requestId < 2 ^ 16
  pairs : List (Bytes × Bytes)
  pairs_ne : pairs ≠ []
  fits : (pairs.flatMap pairCode).length ≤ PARAMS_BUFF_LEN

namespace FcgiRequest

/-- The bytes that `StartRequestRecord`, `Params` and `EndRequestRecord`
append. -/
def bytes (request : FcgiRequest) : Bytes :=
  startRequestRecord request.requestId ++
    Params request.requestId request.pairs ++
    endRequestRecord request.requestId

/-- The record that begins the request, the one with the parameters, and the
empty one. -/
def records (request : FcgiRequest) : List FcgiRecord :=
  [{ header := makeHeader FCGI_BEGIN_REQUEST request.requestId 8 0
     content := makeBeginRequestBody FCGI_RESPONDER true },
   { header :=
       makeHeader FCGI_PARAMS request.requestId
         (request.pairs.flatMap pairCode).length 0
     content := request.pairs.flatMap pairCode },
   { header := makeHeader FCGI_PARAMS request.requestId 0 0, content := [] }]

theorem bytes_eq (request : FcgiRequest) :
    request.bytes =
      request.records.flatMap fun r => r.header.bytes ++ r.content := by
  have hparams := Params_eq request.fits request.requestId
  rw [params, ← flatMap_pairCode request.fits] at hparams
  rw [bytes, hparams]
  simp [records, startRequestRecord, endRequestRecord, makeBeginRequestBody]

/-- Every header has the request id, and the length of its content. -/
theorem header_of_mem (request : FcgiRequest) {r : FcgiRecord}
    (hr : r ∈ request.records) :
    r.header.requestId = request.requestId ∧
      r.header.contentLength = r.content.length ∧
      r.header.paddingLength = 0 := by
  have hheader : ∀ (type : Byte) (content : Bytes),
      content.length < 2 ^ 16 →
        (makeHeader type request.requestId content.length 0).requestId =
            request.requestId ∧
          (makeHeader type request.requestId content.length 0).contentLength =
            content.length := by
    intro type content hcontent
    have hid := requestId_makeHeader type request.requestId content.length 0
    have hlen :=
      contentLength_makeHeader type request.requestId content.length 0
    have hlt := request.requestId_lt
    constructor <;> omega
  have hfits := request.fits
  rw [PARAMS_BUFF_LEN] at hfits
  rw [records, List.mem_cons, List.mem_cons, List.mem_singleton] at hr
  rcases hr with rfl | rfl | rfl
  · have h := hheader FCGI_BEGIN_REQUEST
      (makeBeginRequestBody FCGI_RESPONDER true)
      (show 8 < 2 ^ 16 by decide)
    exact ⟨h.1, h.2, rfl⟩
  · have h := hheader FCGI_PARAMS (request.pairs.flatMap pairCode) (by omega)
    exact ⟨h.1, h.2, rfl⟩
  · have h := hheader FCGI_PARAMS [] (show 0 < 2 ^ 16 by decide)
    exact ⟨h.1, h.2, rfl⟩

theorem reads_record (request : FcgiRequest) {r : FcgiRecord}
    (hr : r ∈ request.records) :
    Reads record (r.header.bytes ++ r.content) r := by
  obtain ⟨-, hlen, hpad⟩ := request.header_of_mem hr
  have hheader : FcgiHeader.ofBytes r.header.bytes = r.header := rfl
  unfold record
  apply (reads_next r.header.length_bytes).bind
  rw [hheader, hlen, hpad]
  apply (reads_next rfl).bind_nil
  apply (reads_next (show ([] : Bytes).length = _ from rfl)).bind_nil
  exact reads_pure r

theorem all_nameValue (request : FcgiRequest) :
    all nameValue (request.pairs.flatMap pairCode) = some request.pairs := by
  have hread : ∀ pair ∈ request.pairs,
      Reads nameValue (makeNameValueBody pair.1 pair.2) (id pair) := by
    intro pair hpair
    obtain ⟨hname, hvalue⟩ := lengths_lt_of_fits request.fits hpair
    exact reads_nameValue hname hvalue
  have hall := all_flatMap hread fun pair _ =>
    makeNameValueBody_ne_nil pair.1 pair.2
  rwa [List.map_id, ← flatMap_pairCode request.fits] at hall

theorem content_ne_nil (request : FcgiRequest) :
    request.pairs.flatMap pairCode ≠ [] := by
  obtain ⟨pair, pairs, hpairs⟩ := List.exists_cons_of_ne_nil request.pairs_ne
  rw [flatMap_pairCode request.fits, hpairs, List.flatMap_cons]
  exact List.append_ne_nil_of_left_ne_nil (makeNameValueBody_ne_nil _ _) _

theorem message_records (request : FcgiRequest) :
    request.records.map FcgiRecord.message =
      [some (.beginRequest FCGI_RESPONDER.toNat true),
        some (.params request.pairs), some .endParams] := by
  have hparams : FcgiRecord.message
      { header :=
          makeHeader FCGI_PARAMS request.requestId
            (request.pairs.flatMap pairCode).length 0
        content := request.pairs.flatMap pairCode } =
      (all nameValue (request.pairs.flatMap pairCode)).map .params :=
    if_neg request.content_ne_nil
  rw [request.all_nameValue, Option.map_some] at hparams
  rw [records, List.map_cons, List.map_cons, List.map_singleton, hparams]
  rfl

end FcgiRequest

/-- A reader takes the bytes of a request apart into the record that begins it,
one record with its parameters in order, and the empty one, each of them with
its id and the length of what follows the header. -/
theorem fcgiRequest_decoded (request : FcgiRequest) :
    ∃ records,
      all record request.bytes = some records ∧
      (∀ r ∈ records,
        r.header.requestId = request.requestId ∧
          r.header.contentLength = r.content.length) ∧
      records.map FcgiRecord.message =
        [some (.beginRequest FCGI_RESPONDER.toNat true),
          some (.params request.pairs), some .endParams] := by
  refine ⟨request.records, ?_, ?_, request.message_records⟩
  · have hall := all_flatMap (fun r hr => request.reads_record hr)
      fun r _ => List.append_ne_nil_of_left_ne_nil (List.cons_ne_nil _ _) _
    rwa [← request.bytes_eq, List.map_id'] at hall
  · intro r hr
    obtain ⟨hid, hlen, -⟩ := request.header_of_mem hr
    exact ⟨hid, hlen⟩

end FastCgi

end MuduoHttp
