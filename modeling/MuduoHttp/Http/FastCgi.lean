import MuduoHttp.Net.Buffer

/-!
# The FastCGI codec

`FastCgi` writes the records of a request and takes the records of php-fpm
apart, one by one.  `ParseFromPhp` trusts the header: it copies the announced
number of bytes from `peek()` on, whether or not so many are readable.
-/

namespace MuduoHttp

structure FcgiHeader where
  version : Byte
  type : Byte
  requestIdB1 : Byte
  requestIdB0 : Byte
  contentLengthB1 : Byte
  contentLengthB0 : Byte
  paddingLength : Byte
  reserved : Byte
  deriving DecidableEq, Repr

def FCGI_HEADER_LEN : ℕ := 8
def FCGI_VERSION_1 : Byte := 1
def FCGI_BEGIN_REQUEST : Byte := 1
def FCGI_END_REQUEST : Byte := 3
def FCGI_PARAMS : Byte := 4
def FCGI_STDOUT : Byte := 6
def FCGI_STDERR : Byte := 7
def FCGI_RESPONDER : ℤ := 1
def FCGI_KEEP_CONN : Byte := 1

namespace FcgiHeader

/-- The bytes of the struct in memory. -/
def bytes (h : FcgiHeader) : Bytes :=
  [h.version, h.type, h.requestIdB1, h.requestIdB0, h.contentLengthB1,
    h.contentLengthB0, h.paddingLength, h.reserved]

/-- `memcpy` of a header from `peek()`. -/
def ofBytes (buffer : Bytes) : FcgiHeader where
  version := buffer.getD 0 0
  type := buffer.getD 1 0
  requestIdB1 := buffer.getD 2 0
  requestIdB0 := buffer.getD 3 0
  contentLengthB1 := buffer.getD 4 0
  contentLengthB0 := buffer.getD 5 0
  paddingLength := buffer.getD 6 0
  reserved := buffer.getD 7 0

def requestId (h : FcgiHeader) : ℕ :=
  h.requestIdB1.toNat * 2 ^ 8 + h.requestIdB0.toNat

def contentLength (h : FcgiHeader) : ℕ :=
  h.contentLengthB1.toNat * 2 ^ 8 + h.contentLengthB0.toNat

@[simp] theorem length_bytes (h : FcgiHeader) :
    h.bytes.length = FCGI_HEADER_LEN := rfl

@[simp] theorem ofBytes_bytes (h : FcgiHeader) (rest : Bytes) :
    ofBytes (h.bytes ++ rest) = h := rfl

/-- Eight bytes are a header. -/
theorem bytes_ofBytes {buffer : Bytes} (h : FCGI_HEADER_LEN ≤ buffer.length) :
    buffer = (ofBytes buffer).bytes ++ buffer.drop FCGI_HEADER_LEN := by
  match buffer, h with
  | _ :: _ :: _ :: _ :: _ :: _ :: _ :: _ :: _, _ => rfl

theorem ofBytes_append {buffer : Bytes} (h : FCGI_HEADER_LEN ≤ buffer.length)
    (data : Bytes) : ofBytes (buffer ++ data) = ofBytes buffer := by
  rw [bytes_ofBytes h, List.append_assoc, ofBytes_bytes, ofBytes_bytes]

end FcgiHeader

namespace FastCgi

/-! ## Requests -/

/-- `(unsigned char)(n & 0xff)`. -/
def lowByte (n : ℤ) : Byte := (n % 2 ^ 8).toNat.toUInt8

def makeHeader (type : Byte) (requestId contentLength : ℤ)
    (paddingLength : Byte) : FcgiHeader where
  version := FCGI_VERSION_1
  type := type
  requestIdB1 := lowByte (requestId / 2 ^ 8)
  requestIdB0 := lowByte requestId
  contentLengthB1 := lowByte (contentLength / 2 ^ 8)
  contentLengthB0 := lowByte contentLength
  paddingLength := paddingLength
  reserved := 0

def makeBeginRequestBody (role : ℤ) (keepConnection : Bool) : Bytes :=
  [lowByte (role / 2 ^ 8), lowByte role,
    if keepConnection then FCGI_KEEP_CONN else 0, 0, 0, 0, 0, 0]

/-- A length in one byte, or in four with the top bit set. -/
def lengthBytes (n : ℕ) : Bytes :=
  if n < 128 then [n.toUInt8]
  else
    [(n / 2 ^ 24 ||| 0x80).toUInt8, (n / 2 ^ 16).toUInt8, (n / 2 ^ 8).toUInt8,
      n.toUInt8]

def makeNameValueBody (name value : Bytes) : Bytes :=
  lengthBytes name.length ++ lengthBytes value.length ++ name ++ value

def startRequestRecord (requestId : ℤ) : Bytes :=
  let body := makeBeginRequestBody FCGI_RESPONDER true
  (makeHeader FCGI_BEGIN_REQUEST requestId body.length 0).bytes ++ body

/-- `Params` on vectors.  The parameters are built here as a list; the source
builds them in an array of `PARAMS_BUFF_LEN` bytes, without a check. -/
def params (requestId : ℤ) (pairs : List (Bytes × Bytes)) : Bytes :=
  let body := pairs.flatMap fun pair => makeNameValueBody pair.1 pair.2
  (makeHeader FCGI_PARAMS requestId body.length 0).bytes ++ body

def endRequestRecord (requestId : ℤ) : Bytes :=
  (makeHeader FCGI_PARAMS requestId 0 0).bytes

theorem toNat_lowByte (n : ℤ) : ((lowByte n).toNat : ℤ) = n % 2 ^ 8 := by
  rw [lowByte, Nat.toUInt8, UInt8.toNat_ofNat']
  omega

/-- The request id on the wire is the id modulo `2 ^ 16`. -/
theorem requestId_makeHeader (type : Byte) (requestId contentLength : ℤ)
    (paddingLength : Byte) :
    ((makeHeader type requestId contentLength paddingLength).requestId : ℤ) =
      requestId % 2 ^ 16 := by
  have hhigh := toNat_lowByte (requestId / 2 ^ 8)
  have hlow := toNat_lowByte requestId
  simp only [FcgiHeader.requestId, makeHeader]
  omega

/-- The content length on the wire is the length modulo `2 ^ 16`. -/
theorem contentLength_makeHeader (type : Byte) (requestId contentLength : ℤ)
    (paddingLength : Byte) :
    ((makeHeader type requestId contentLength paddingLength).contentLength :
        ℤ) = contentLength % 2 ^ 16 := by
  have hhigh := toNat_lowByte (contentLength / 2 ^ 8)
  have hlow := toNat_lowByte contentLength
  simp only [FcgiHeader.contentLength, makeHeader]
  omega

/-! ## Records from php-fpm -/

def getRequestId (buffer : Bytes) : ℕ := (FcgiHeader.ofBytes buffer).requestId

/-- A copy of `n` bytes from `peek()` on, with the memory that lies behind the
readable bytes. -/
def copyFrom (stale : ℕ → Byte) (buffer : Bytes) (n : ℕ) : Bytes :=
  buffer.take n ++ (List.range (n - buffer.length)).map stale

/-- What a call of `ParseFromPhp` returns and leaves in the buffer, and
whether it copied more bytes than were readable. -/
structure Parsed where
  content : Bytes
  buffer : Bytes
  overrun : Bool

def parseFromPhp (stale : ℕ → Byte) (buffer : Bytes) : Parsed :=
  let header := FcgiHeader.ofBytes buffer
  let buffer := Buffer.retrieve buffer FCGI_HEADER_LEN
  let contentLen := header.contentLength
  if header.type = FCGI_STDOUT then
    let rest := Buffer.retrieve buffer contentLen
    { content := copyFrom stale buffer contentLen
      buffer :=
        if header.paddingLength > 0 then
          Buffer.retrieve rest header.paddingLength.toNat
        else rest
      overrun := buffer.length < contentLen }
  else if header.type = FCGI_STDERR then
    let rest := Buffer.retrieve buffer contentLen
    { content := []
      buffer :=
        if header.paddingLength > 0 then
          Buffer.retrieve rest header.paddingLength.toNat
        else rest
      overrun := false }
  else if header.type = FCGI_END_REQUEST then
    { content := [], buffer := Buffer.retrieve buffer 8, overrun := false }
  else { content := [], buffer := buffer, overrun := false }

/-- One turn of the loop of `onCGIMessage`. -/
structure CgiMessage where
  requestid : ℕ
  content : Bytes
  overrun : Bool
  deriving DecidableEq, Repr

/-- The loop of `onCGIMessage`, as far as the buffer goes. -/
def cgiLoop (stale : ℕ → Byte) : ℕ → Bytes → List CgiMessage × Bytes
  | 0, buf => ([], buf)
  | fuel + 1, buf =>
      if FCGI_HEADER_LEN ≤ buf.length then
        let parsed := parseFromPhp stale buf
        let (messages, rest) := cgiLoop stale fuel parsed.buffer
        (⟨getRequestId buf, parsed.content, parsed.overrun⟩ :: messages, rest)
      else ([], buf)

/-- The messages of one call of `onCGIMessage`, and what it leaves.  Every
turn consumes a header, so that the number of bytes is enough fuel. -/
def cgiMessages (stale : ℕ → Byte) (buf : Bytes) : List CgiMessage × Bytes :=
  cgiLoop stale buf.length buf

end FastCgi

end MuduoHttp
