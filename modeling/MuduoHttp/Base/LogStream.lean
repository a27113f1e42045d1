import MuduoHttp.Base.Bytes
import MuduoHttp.Support.FixedArray
import MuduoHttp.Support.Numeral

/-!
# Log streams

A `LogStream` formats what is inserted into it in a buffer of fixed size.
Text is copied into the buffer when it fits; numbers are written in place,
digit by digit and the last one first, when 32 bytes are left.

A store through a pointer is `none` when it misses `data_`, and so are a
pointer moved beyond its end and a read beside a table of digits.
-/

namespace MuduoHttp

open Support

/-- `detail::kSmallBuffer`. -/
def kSmallBuffer : ℕ := 4000

/-- `LogStream::kMaxNumericSize`. -/
def kMaxNumericSize : ℕ := 32

def NUL : Byte := 0
def MINUS : Byte := 45

/-- `detail::FixedBuffer<SIZE>`, with `cur_` as an offset into `data_`. -/
structure FixedBuffer (SIZE : ℕ) where
  data_ : FixedArray Byte SIZE
  cur_ : ℕ
  bound : cur_ ≤ SIZE

namespace FixedBuffer

variable {SIZE : ℕ}

/-- The constructor leaves `data_` uninitialised. -/
def new (data : FixedArray Byte SIZE) : FixedBuffer SIZE :=
  ⟨data, 0, Nat.zero_le _⟩

def length (b : FixedBuffer SIZE) : ℕ := b.cur_

def avail (b : FixedBuffer SIZE) : ℕ := SIZE - b.cur_

def add (b : FixedBuffer SIZE) (len : ℕ) : Option (FixedBuffer SIZE) :=
  if h : b.cur_ + len ≤ SIZE then some ⟨b.data_, b.cur_ + len, h⟩ else none

/-- Text that does not fit is ignored. -/
def append (b : FixedBuffer SIZE) (buf : Bytes) : Option (FixedBuffer SIZE) :=
  if b.avail > buf.length then do
    let data ← b.data_.write b.cur_ buf
    add { b with data_ := data } buf.length
  else some b

def toString (b : FixedBuffer SIZE) : Bytes := b.data_.1.take b.length

end FixedBuffer

/-! ## Conversion of integers -/

namespace LogStream

/-- The byte at a position of a table. -/
def charAt (table : Bytes) (i : ℤ) : Option Byte :=
  if 0 ≤ i then table[i.toNat]? else none

def digits : Bytes := ascii "9876543210123456789"

/-- `zero[lsd]`, where `zero` points into the middle of `digits`. -/
def zero (lsd : ℤ) : Option Byte := charAt digits (9 + lsd)

def digitsHex : Bytes := ascii "0123456789ABCDEF"

/-- A base and the table that shows its remainders. -/
structure Radix where
  base : ℕ
  one_lt : 1 < base
  symbol : ℤ → Option Byte

/-- The radix of `convert`. -/
def Radix.decimal : Radix := ⟨10, by decide, zero⟩

/-- The radix of `convertHex`. -/
def Radix.hexadecimal : Radix := ⟨16, by decide, charAt digitsHex⟩

theorem Radix.natAbs_tdiv_lt (r : Radix) {i : ℤ} (h : i.tdiv r.base ≠ 0) :
    (i.tdiv r.base).natAbs < i.natAbs := by
  have hi : i.natAbs ≠ 0 := by
    intro hzero
    rw [Int.natAbs_eq_zero.mp hzero, Int.zero_tdiv] at h
    exact h rfl
  rw [Int.natAbs_tdiv, Int.natAbs_natCast]
  exact Nat.div_lt_self (Nat.pos_of_ne_zero hi) r.one_lt

variable {SIZE : ℕ}

/-- The loop of `convert` and `convertHex`; division truncates. -/
def convertLoop (r : Radix) (data : FixedArray Byte SIZE) (p : ℕ) (i : ℤ) :
    Option (FixedArray Byte SIZE × ℕ) := do
  let c ← r.symbol (i.tmod r.base)
  let data ← data.write p [c]
  if _h : i.tdiv r.base ≠ 0 then
    convertLoop r data (p + 1) (i.tdiv r.base)
  else some (data, p + 1)
termination_by i.natAbs
decreasing_by exact r.natAbs_tdiv_lt _h

/-- The end of `convert` and `convertHex`: the terminating NUL, the reversal,
and the length. -/
def convertEnd (data : FixedArray Byte SIZE) (buf p : ℕ) :
    Option (FixedArray Byte SIZE × ℕ) := do
  let data ← data.write p [NUL]
  let data ← data.reverse buf p
  some (data, p - buf)

/-- `convert<T>`, on the number that a `T` stands for: no quotient or
remainder of it overflows. -/
def convert (data : FixedArray Byte SIZE) (buf : ℕ) (value : ℤ) :
    Option (FixedArray Byte SIZE × ℕ) := do
  let (data, p) ← convertLoop .decimal data buf value
  if value < 0 then
    let data ← data.write p [MINUS]
    convertEnd data buf (p + 1)
  else convertEnd data buf p

def convertHex (data : FixedArray Byte SIZE) (buf : ℕ) (value : UInt64) :
    Option (FixedArray Byte SIZE × ℕ) := do
  let (data, p) ← convertLoop .hexadecimal data buf value.toNat
  convertEnd data buf p

end LogStream

/-- What is inserted with `<<`.  A `long` has 64 bits.  The bytes at a
`char*` go on to its first NUL, and `none` is the null pointer. -/
inductive LogItem
  | bool (v : Bool)
  | short (v : Int16)
  | unsignedShort (v : UInt16)
  | int (v : Int32)
  | unsignedInt (v : UInt32)
  | long (v : Int64)
  | unsignedLong (v : UInt64)
  | longLong (v : Int64)
  | unsignedLongLong (v : UInt64)
  | pointer (p : UInt64)
  | char (v : Byte)
  | charPointer (str : Option Bytes)
  | unsignedCharPointer (str : Option Bytes)
  | string (v : Bytes)
  | stringPiece (v : Bytes)

structure LogStream where
  buffer_ : FixedBuffer kSmallBuffer

namespace LogStream

/-- A stream on whatever its buffer holds. -/
def new (data : FixedArray Byte kSmallBuffer) : LogStream := ⟨.new data⟩

/-- `buffer_.append`. -/
def append (s : LogStream) (buf : Bytes) : Option LogStream := do
  let buffer ← s.buffer_.append buf
  some { s with buffer_ := buffer }

def formatInteger (s : LogStream) (v : ℤ) : Option LogStream :=
  if s.buffer_.avail ≥ kMaxNumericSize then do
    let (data, len) ← convert s.buffer_.data_ s.buffer_.cur_ v
    let buffer ← FixedBuffer.add { s.buffer_ with data_ := data } len
    some { s with buffer_ := buffer }
  else some s

def formatPointer (s : LogStream) (v : UInt64) : Option LogStream :=
  if s.buffer_.avail ≥ kMaxNumericSize then do
    let buf := s.buffer_.cur_
    let data ← s.buffer_.data_.write buf (ascii "0")
    let data ← data.write (buf + 1) (ascii "x")
    let (data, len) ← convertHex data (buf + 2) v
    let buffer ← FixedBuffer.add { s.buffer_ with data_ := data } (len + 2)
    some { s with buffer_ := buffer }
  else some s

/-- `operator<<(const char*)`. -/
def appendCString (s : LogStream) : Option Bytes → Option LogStream
  | some str => s.append (str.take (str.idxOf NUL))
  | none => s.append (ascii "(null)")

/-- `operator<<`, by the type of its argument. -/
def insert (s : LogStream) : LogItem → Option LogStream
  | .bool v => s.append (if v then ascii "1" else ascii "0")
  | .short v => s.formatInteger v.toInt32.toInt
  | .unsignedShort v => s.formatInteger v.toUInt32.toNat
  | .int v => s.formatInteger v.toInt
  | .unsignedInt v => s.formatInteger v.toNat
  | .long v => s.formatInteger v.toInt
  | .unsignedLong v => s.formatInteger v.toNat
  | .longLong v => s.formatInteger v.toInt
  | .unsignedLongLong v => s.formatInteger v.toNat
  | .pointer p => s.formatPointer p
  | .char v => s.append [v]
  | .charPointer str => s.appendCString str
  | .unsignedCharPointer str => s.appendCString str
  | .string v => s.append v
  | .stringPiece v => s.append v

/-- `s << item << item ...`. -/
def insertAll (s : LogStream) : List LogItem → Option LogStream
  | [] => some s
  | item :: items => do
      let s ← s.insert item
      s.insertAll items

end LogStream

end MuduoHttp
